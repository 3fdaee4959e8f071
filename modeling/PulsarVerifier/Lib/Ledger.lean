import Mathlib.Data.Finset.Card

/-!
# A ledger of jobs with a bounded number of requests

Every key has at most one job.  A job has at most one request in flight; a job that is stopped while its request is in
flight stays in the ledger until the request is finished.  `slots` counts the requests in flight (`Counted`), and
`expired` remembers the keys of which a job was given up because it ran out of time.
-/

/-- The request a job has in flight, and whether the job was stopped. -/
structure Job (ρ : Type) where
  active : Option ρ
  finished : Bool

structure Ledger (κ ρ : Type) where
  jobs : κ → Option (Job ρ)
  slots : Nat
  expired : Finset κ

def Job.stopped {ρ : Type} : Job ρ → Option (Job ρ)
  | ⟨none, _⟩ => none
  | ⟨some request, _⟩ => some ⟨some request, true⟩

theorem Job.stopped_stopped {ρ : Type} (job : Job ρ) : job.stopped.bind Job.stopped = job.stopped := by
  obtain ⟨_ | request, finished⟩ := job <;> rfl

theorem Job.stopped_active {ρ : Type} (job : Job ρ) : job.stopped.bind Job.active = job.active := by
  obtain ⟨_ | request, finished⟩ := job <;> rfl

namespace Ledger

variable {κ ρ : Type} [DecidableEq κ]

def set (l : Ledger κ ρ) (k : κ) (job : Option (Job ρ)) : Ledger κ ρ :=
  { l with jobs := fun k' => if k' = k then job else l.jobs k' }

def stop (l : Ledger κ ρ) (k : κ) : Ledger κ ρ := l.set k ((l.jobs k).bind Job.stopped)

def stopOthers (l : Ledger κ ρ) (ks : List κ) : Ledger κ ρ :=
  { l with jobs := fun k => if k ∈ ks then l.jobs k else (l.jobs k).bind Job.stopped }

def expire (l : Ledger κ ρ) (k : κ) : Ledger κ ρ := { l with expired := insert k l.expired }

/-- There is a job for `k`: the present one, or a new one. -/
def ensure (l : Ledger κ ρ) (k : κ) : Ledger κ ρ := l.set k (some ((l.jobs k).getD ⟨none, false⟩))

def start (l : Ledger κ ρ) (k : κ) (request : ρ) : Ledger κ ρ :=
  match l.jobs k with
  | none => l
  | some job => { l.set k (some { job with active := some request }) with slots := l.slots + 1 }

/-- The request of `k` is over and gives its slot back; `job` is what becomes of the job. -/
def finish (l : Ledger κ ρ) (k : κ) (job : Option (Job ρ)) : Ledger κ ρ := { l.set k job with slots := l.slots - 1 }

def active (l : Ledger κ ρ) (k : κ) : Option ρ := (l.jobs k).bind Job.active

/-- There is a job for `k` that was not stopped. -/
def Live (l : Ledger κ ρ) (k : κ) : Prop := ∃ job, l.jobs k = some job ∧ job.finished = false

/-- The job of `k` is live and has no request. -/
def Idle (l : Ledger κ ρ) (k : κ) : Prop := l.jobs k = some ⟨none, false⟩

/-- `k` has a live job, or a job for it ran out of time. -/
def Attended (l : Ledger κ ρ) (k : κ) : Prop := l.Live k ∨ k ∈ l.expired

def Unstopped (l : Ledger κ ρ) (k : κ) : Prop := ∀ job, l.jobs k = some job → job.finished = false

/-- Every slot belongs to one request in flight. -/
def Counted (l : Ledger κ ρ) : Prop := ∃ ks : Finset κ, (∀ k, k ∈ ks ↔ (l.active k).isSome) ∧ ks.card = l.slots

/-- Every slot belongs to one request in flight, and so does every job that was stopped. -/
structure Consistent (l : Ledger κ ρ) : Prop where
  counted : l.Counted
  stopped : ∀ k job, l.jobs k = some job → job.finished = true → job.active.isSome = true

/-- No request starts or ends: a job is kept or stopped, or it is new and has no request. -/
def Calm (l l' : Ledger κ ρ) : Prop :=
  l'.slots = l.slots ∧ ∀ k, l'.jobs k = l.jobs k ∨ l'.jobs k = (l.jobs k).bind Job.stopped ∨
    (l.jobs k = none ∧ l'.jobs k = some ⟨none, false⟩)

variable {l l' : Ledger κ ρ} {k k' : κ} {job : Option (Job ρ)} {request : ρ} {ks : List κ}

omit [DecidableEq κ] in
@[ext] theorem ext (hjobs : ∀ k, l.jobs k = l'.jobs k) (hslots : l.slots = l'.slots)
    (hexpired : l.expired = l'.expired) : l = l' := by
  obtain ⟨jobs, slots, expired⟩ := l
  obtain ⟨jobs', slots', expired'⟩ := l'
  obtain rfl : jobs = jobs' := funext hjobs
  obtain rfl : slots = slots' := hslots
  obtain rfl : expired = expired' := hexpired
  rfl

/-! ### What the operations do to a job -/

@[simp] theorem jobs_set : (l.set k job).jobs k' = if k' = k then job else l.jobs k' := rfl

@[simp] theorem slots_set : (l.set k job).slots = l.slots := rfl

@[simp] theorem expired_set : (l.set k job).expired = l.expired := rfl

theorem set_self (h : l.jobs k = job) : l.set k job = l := by
  ext k' : 1
  · rw [jobs_set]
    by_cases hk : k' = k
    · rw [if_pos hk, hk, h]
    · rw [if_neg hk]
  · rfl
  · rfl

theorem jobs_foldl_stop :
    (ks.foldl stop l).jobs k = if k ∈ ks then (l.jobs k).bind Job.stopped else l.jobs k := by
  induction ks generalizing l with
  | nil => simp
  | cons k₁ ks ih =>
    have hagain : ∀ job : Option (Job ρ), (job.bind Job.stopped).bind Job.stopped = job.bind Job.stopped := by
      intro job
      cases job with
      | none => rfl
      | some job => exact Job.stopped_stopped job
    rw [List.foldl_cons, ih]
    simp only [stop, jobs_set, List.mem_cons]
    by_cases hk : k = k₁
    · subst hk
      by_cases hks : k ∈ ks <;> simp [hks, hagain]
    · simp [hk]

theorem slots_foldl_stop : (ks.foldl stop l).slots = l.slots := by
  induction ks generalizing l with
  | nil => rfl
  | cons k ks ih => rw [List.foldl_cons, ih]; rfl

theorem expired_foldl_stop : (ks.foldl stop l).expired = l.expired := by
  induction ks generalizing l with
  | nil => rfl
  | cons k ks ih => rw [List.foldl_cons, ih]; rfl

/-! ### Requests in flight -/

omit [DecidableEq κ] in
theorem Calm.refl (l : Ledger κ ρ) : l.Calm l := ⟨rfl, fun _ => .inl rfl⟩

theorem calm_stop : l.Calm (l.stop k) := by
  refine ⟨rfl, fun k' => ?_⟩
  rw [stop, jobs_set]
  by_cases hk : k' = k
  · rw [if_pos hk, hk]
    exact .inr (.inl rfl)
  · exact .inl (if_neg hk)

theorem calm_expire_stop : l.Calm ((l.expire k).stop k) := calm_stop (l := l.expire k)

theorem calm_stopOthers : l.Calm (l.stopOthers ks) := by
  refine ⟨rfl, fun k => ?_⟩
  by_cases hk : k ∈ ks
  · exact .inl (if_pos hk)
  · exact .inr (.inl (if_neg hk))

theorem calm_ensure : l.Calm (l.ensure k) := by
  refine ⟨rfl, fun k' => ?_⟩
  rw [ensure, jobs_set]
  by_cases hk : k' = k
  · rw [if_pos hk, hk]
    cases hjob : l.jobs k with
    | none => exact .inr (.inr ⟨rfl, rfl⟩)
    | some job => exact .inl rfl
  · exact .inl (if_neg hk)

omit [DecidableEq κ] in
theorem Calm.active (h : l.Calm l') (k : κ) : l'.active k = l.active k := by
  unfold Ledger.active
  rcases h.2 k with hjob | hjob | ⟨hnone, hjob⟩
  · rw [hjob]
  · rw [hjob]
    cases l.jobs k with
    | none => rfl
    | some job => exact Job.stopped_active job
  · rw [hjob, hnone]
    rfl

theorem active_start (h : l.Idle k) : (l.start k request).active k' = if k' = k then some request else l.active k' := by
  unfold Idle at h
  simp only [active, start, h, jobs_set]
  by_cases hk : k' = k
  · simp [hk]
  · simp [hk]

theorem slots_start (h : l.Idle k) : (l.start k request).slots = l.slots + 1 := by
  unfold Idle at h
  simp only [start, h]

theorem active_finish (h : job.bind Job.active = none) :
    (l.finish k job).active k' = if k' = k then none else l.active k' := by
  unfold active finish
  rw [jobs_set]
  by_cases hk : k' = k
  · rw [if_pos hk, if_pos hk, h]
  · rw [if_neg hk, if_neg hk]

omit [DecidableEq κ] in
theorem active_of_idle (h : l.Idle k) : l.active k = none := by
  unfold active
  rw [h]
  rfl

/-! ### Slots -/

omit [DecidableEq κ] in
theorem Counted.of_active (h : l.Counted) (hactive : ∀ k, l'.active k = l.active k) (hslots : l'.slots = l.slots) :
    l'.Counted := by
  obtain ⟨ks, hks, hcard⟩ := h
  exact ⟨ks, fun k => by rw [hactive, hks], hcard.trans hslots.symm⟩

theorem Counted.start (h : l.Counted) (hidle : l.Idle k) : (l.start k request).Counted := by
  obtain ⟨ks, hks, hcard⟩ := h
  have hnot : k ∉ ks := by
    rw [hks, active_of_idle hidle]
    simp
  refine ⟨insert k ks, fun k' => ?_, ?_⟩
  · rw [active_start hidle, Finset.mem_insert, hks]
    by_cases hk : k' = k
    · simp [hk]
    · simp [hk]
  · rw [Finset.card_insert_of_notMem hnot, hcard, slots_start hidle]

theorem Counted.finish (h : l.Counted) (hactive : (l.active k).isSome) (hjob : job.bind Job.active = none) :
    (l.finish k job).Counted := by
  obtain ⟨ks, hks, hcard⟩ := h
  have hk : k ∈ ks := (hks k).2 hactive
  refine ⟨ks.erase k, fun k' => ?_, ?_⟩
  · rw [active_finish hjob, Finset.mem_erase, hks]
    by_cases hk' : k' = k
    · simp [hk']
    · simp [hk']
  · rw [Finset.card_erase_of_mem hk, hcard]
    rfl

omit [DecidableEq κ] in
theorem Counted.slots_pos (h : l.Counted) (hactive : (l.active k).isSome) : 0 < l.slots := by
  obtain ⟨ks, hks, hcard⟩ := h
  rw [← hcard]
  exact Finset.card_pos.2 ⟨k, (hks k).2 hactive⟩

omit [DecidableEq κ] in
theorem Consistent.calm (h : l.Consistent) (hcalm : l.Calm l') : l'.Consistent where
  counted := h.counted.of_active hcalm.active hcalm.1
  stopped k job hjob hfinished := by
    rcases hcalm.2 k with hk | hk | ⟨-, hk⟩
    · exact h.stopped k job (hk ▸ hjob) hfinished
    · -- a job that is left after it was stopped has a request
      rw [hk] at hjob
      obtain ⟨before, -, hstopped⟩ := Option.bind_eq_some_iff.1 hjob
      obtain ⟨_ | request, finished⟩ := before
      · cases hstopped
      · cases hstopped
        rfl
    · rw [hk] at hjob
      cases hjob
      cases hfinished

theorem Consistent.start (h : l.Consistent) (hidle : l.Idle k) : (l.start k request).Consistent where
  counted := h.counted.start hidle
  stopped k' job hjob hfinished := by
    have hjobs : (l.start k request).jobs k' = if k' = k then some ⟨some request, false⟩ else l.jobs k' := by
      unfold Idle at hidle
      simp only [Ledger.start, hidle, jobs_set]
    rw [hjobs] at hjob
    split_ifs at hjob
    · cases hjob
      cases hfinished
    · exact h.stopped k' job hjob hfinished

theorem Consistent.finish (h : l.Consistent) (hactive : (l.active k).isSome)
    (hjob : job = none ∨ job = some ⟨none, false⟩) : (l.finish k job).Consistent where
  counted := h.counted.finish hactive (by rcases hjob with rfl | rfl <;> rfl)
  stopped k' job' hjob' hfinished := by
    rw [Ledger.finish, jobs_set] at hjob'
    split_ifs at hjob'
    · rcases hjob with rfl | rfl
      · cases hjob'
      · cases hjob'
        cases hfinished
    · exact h.stopped k' job' hjob' hfinished

/-! ### Live jobs -/

theorem live_set_of_ne (hk : k' ≠ k) : (l.set k job).Live k' ↔ l.Live k' := by
  unfold Live
  rw [jobs_set, if_neg hk]

theorem Attended.set_of_ne (h : l.Attended k') (hk : k' ≠ k) : (l.set k job).Attended k' :=
  h.imp_left (live_set_of_ne hk).2

theorem Attended.stop_of_ne (h : l.Attended k') (hk : k' ≠ k) : (l.stop k).Attended k' := h.set_of_ne hk

theorem Attended.finish_of_ne (h : l.Attended k') (hk : k' ≠ k) : (l.finish k job).Attended k' := h.set_of_ne hk

theorem Attended.expire (h : l.Attended k') : (l.expire k).Attended k' :=
  h.imp_right Finset.mem_insert_of_mem

/-- Giving up a job that ran out of time leaves its key attended. -/
theorem Attended.expire_stop (h : l.Attended k') : ((l.expire k).stop k).Attended k' := by
  by_cases hk : k' = k
  · rw [hk]
    exact .inr (Finset.mem_insert_self _ _)
  · exact h.expire.stop_of_ne hk

theorem Attended.stopOthers (h : l.Attended k) (hk : k ∈ ks) : (l.stopOthers ks).Attended k := by
  refine h.imp_left (fun hlive => ?_)
  have hjobs : (l.stopOthers ks).jobs k = l.jobs k := if_pos hk
  unfold Live
  rwa [hjobs]

/-- A job that was not stopped is live afterwards. -/
theorem Unstopped.live_ensure (h : l.Unstopped k) : (l.ensure k).Live k := by
  unfold Live ensure
  rw [jobs_set, if_pos rfl]
  cases hjob : l.jobs k with
  | none => exact ⟨_, rfl, rfl⟩
  | some job => exact ⟨job, rfl, h job hjob⟩

omit [DecidableEq κ] in
theorem Live.unstopped (h : l.Live k) : l.Unstopped k := by
  obtain ⟨job, hjob, hlive⟩ := h
  intro job' hjob'
  rw [hjob] at hjob'
  cases hjob'
  exact hlive

theorem Attended.ensure (h : l.Attended k') : (l.ensure k).Attended k' := by
  refine h.imp_left (fun hlive => ?_)
  by_cases hk : k' = k
  · rw [hk] at hlive ⊢
    exact hlive.unstopped.live_ensure
  · exact (live_set_of_ne hk).2 hlive

theorem Attended.start (h : l.Attended k') : (l.start k request).Attended k' := by
  unfold Ledger.start
  split
  · exact h
  · rename_i job hjob
    refine h.imp_left (fun hlive => ?_)
    by_cases hk : k' = k
    · rw [hk] at hlive
      refine ⟨{ job with active := some request }, ?_, hlive.unstopped job hjob⟩
      rw [hk, jobs_set, if_pos rfl]
    · exact (live_set_of_ne hk).2 hlive

end Ledger
