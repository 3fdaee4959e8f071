import PulsarVerifier.P2p.Courses

/-!
# Each retrieval is bounded

`Recorded` relates the record of a run to the entries: the entry of a running worker knows every peer that its life has
asked, so that no peer is asked again.
-/

namespace PulsarVerifier

namespace Worker

variable {w w' : Worker} {record seen : List (VerificationId × Seen)}

/-- The record tells the lives of the entries that are there, and a running worker knows whom it has asked. -/
structure Recorded (w : Worker) (record : List (VerificationId × Seen)) : Prop where
  gone : ∀ id, w.course id = none → life id record = []
  lives : ∀ id course, w.course id = some course →
    Lives w.localPeerId w.config.retrievalTimeout (life id record) course
  known : w.Running → ∀ id course, w.course id = some course →
    ∀ peer ∈ askedPeers (life id record), w.Knows id course peer
  polled : ∀ id attempted, w.control.polled = some (id, attempted) →
    (w.course id).map Course.attempted = some attempted
  within : ∀ entry ∈ record, entry.2.Within w.config

theorem recorded_new {localPeerId : PeerId} {config : P2pConfig} : (new localPeerId config).Recorded [] where
  gone _ _ := rfl
  lives _ _ h := nomatch h
  known _ _ _ h := nomatch h
  polled _ _ h := nomatch h
  within := nofun

theorem CourseStep.of_mem (h : w.CourseStep w' seen) :
    ∀ entry ∈ seen, (w.course entry.1).isSome ∧ entry.2.Within w.config := by
  intro entry hentry
  cases h with
  | kept | sent | created | attempted => cases hentry
  | queried htime hcourse =>
    cases List.mem_singleton.1 hentry
    exact ⟨Option.isSome_of_eq_some hcourse, htime⟩
  | retried hdelay hleft hcourse =>
    cases List.mem_singleton.1 hentry
    exact ⟨Option.isSome_of_eq_some hcourse, hdelay, hleft⟩
  | asked htime hcourse =>
    cases List.mem_singleton.1 hentry
    exact ⟨Option.isSome_of_eq_some hcourse, htime⟩
  | started _ hcourse =>
    cases List.mem_singleton.1 hentry
    exact ⟨Option.isSome_of_eq_some hcourse, trivial⟩

theorem CourseStep.polled (h : w.CourseStep w' seen) (hpolled : ∀ id attempted,
    w.control.polled = some (id, attempted) → (w.course id).map Course.attempted = some attempted) :
    ∀ id attempted, w'.control.polled = some (id, attempted) →
      (w'.course id).map Course.attempted = some attempted := by
  cases h with
  | kept _ hpoised => exact hpoised.polled
  | sent hcourse _ _ hsame =>
    intro id attempted h
    rw [hcourse]
    exact hpolled id attempted (hsame ▸ h)
  | created _ _ _ hpoised => exact hpoised.polled
  | queried _ _ _ _ _ hnone =>
    intro id attempted h
    cases hnone.symm.trans h
  | retried _ _ _ _ hpoised => exact hpoised.polled
  | asked _ _ _ _ _ _ _ _ _ hnone =>
    intro id attempted h
    cases hnone.symm.trans h
  | started _ _ _ _ _ hpoised | attempted _ _ _ _ hpoised => exact hpoised.polled

theorem mem_removedIds {id : VerificationId} :
    id ∈ WorkerTask.removedIds w w' ↔ (w.course id).isSome ∧ w'.course id = none := by
  unfold WorkerTask.removedIds course entry
  rw [List.mem_filter, Option.isSome_map, Option.map_eq_none_iff, Option.isNone_iff_eq_none, ← AList.mem_keys,
    AList.lookup_isSome]

theorem life_of_course {id : VerificationId} {course : Course} (h : w'.course id = some course) :
    life id (record ++ seen ++ (WorkerTask.removedIds w w').map (·, .removed)) = life id (record ++ seen) := by
  rw [life_append_removed, if_neg]
  intro hmem
  cases h.symm.trans (mem_removedIds.1 hmem).2

/-- The course of an entry that stays: it is the same, or its request has started, or one of its peers was attempted. -/
theorem CourseStep.course_cases {id : VerificationId} {course course' : Course} (h : w.CourseStep w' seen)
    (hcourse : w.course id = some course) (hcourse' : w'.course id = some course') :
    course' = course ∨
    (course.active = none ∧ ∃ requestId peer now, course' =
      { course with
        transferDeadline := some (course.transferDeadline.getD (now + w.config.retrievalTimeout))
        active := some (requestId, peer) }) ∨
    ∃ peer, ((∃ requestId, course.active = some (requestId, peer)) ∨ course.active = none) ∧
      course' = { course with active := none, attempted := insert peer course.attempted } := by
  have hsame : w'.course id = w.course id → course' = course := fun hsame =>
    Option.some.inj (hcourse'.symm.trans (hsame.trans hcourse))
  cases h with
  | kept hkeeps _ =>
    rcases hkeeps id with hnone | hkept
    · cases hnone.symm.trans hcourse'
    · exact .inl (hsame hkept)
  | sent hkept => exact .inl (hsame (hkept id))
  | created hnone _ hothers =>
    refine .inl (hsame (hothers id fun hid => ?_))
    subst hid
    cases hnone.symm.trans hcourse
  | queried _ _ hkept | retried _ _ _ hkept | asked _ _ _ _ _ _ hkept => exact .inl (hsame (hkept id))
  | @started id₀ _ _ _ _ _ hcourse₀ hidle hstarted hothers =>
    by_cases hid : id = id₀
    · subst hid
      cases hcourse₀.symm.trans hcourse
      exact .inr (.inl ⟨hidle, _, _, _, Option.some.inj (hcourse'.symm.trans hstarted)⟩)
    · exact .inl (hsame (hothers id hid))
  | @attempted id₀ _ _ hpeer hcourse₀ hattempted hothers =>
    by_cases hid : id = id₀
    · subst hid
      cases hcourse₀.symm.trans hcourse
      exact .inr (.inr ⟨_, hpeer.imp_right And.left, Option.some.inj (hcourse'.symm.trans hattempted)⟩)
    · exact .inl (hsame (hothers id hid))

theorem CourseStep.knows {id : VerificationId} {course course' : Course} {peer : PeerId} (h : w.CourseStep w' seen)
    (hcourse : w.course id = some course) (hcourse' : w'.course id = some course') (hknows : w.Knows id course peer)
    (hasking : w.control.askedBy id ≠ some peer) : w'.Knows id course' peer := by
  have hknows := hknows.imp_right fun hknows => hknows.resolve_right hasking
  rcases h.course_cases hcourse hcourse' with rfl | ⟨hidle, _, _, _, rfl⟩ | ⟨peer', hpeer, rfl⟩
  · exact hknows.imp_right .inl
  · rcases hknows with hattempted | ⟨requestId, hactive⟩
    · exact .inl hattempted
    · cases hidle.symm.trans hactive
  · rcases hknows with hattempted | ⟨requestId, hactive⟩
    · exact .inl (Finset.mem_insert_of_mem hattempted)
    · rcases hpeer with ⟨requestId', hpeer⟩ | hidle
      · cases hpeer.symm.trans hactive
        exact .inl (Finset.mem_insert_self _ _)
      · cases hidle.symm.trans hactive

theorem CourseStep.transferDeadline {id : VerificationId} {course course' : Course} {deadline : Instant}
    (h : w.CourseStep w' seen) (hcourse : w.course id = some course) (hcourse' : w'.course id = some course')
    (hdeadline : course.transferDeadline = some deadline) : course'.transferDeadline = some deadline := by
  rcases h.course_cases hcourse hcourse' with rfl | ⟨_, _, _, _, rfl⟩ | ⟨_, _, rfl⟩
  · exact hdeadline
  · rw [hdeadline]
    rfl
  · exact hdeadline

theorem CourseStep.asked_or {id : VerificationId} {peer : PeerId} (h : w.CourseStep w' seen)
    (hasked : w'.control.asked = some (id, peer)) :
    w.control.asked = some (id, peer) ∨ ∃ now deadline, (id, .asked peer now deadline) ∈ seen := by
  cases h with
  | kept _ hpoised => cases hpoised.asked.symm.trans hasked
  | sent _ hsame => exact .inl (hsame ▸ hasked)
  | created _ _ _ hpoised => cases hpoised.asked.symm.trans hasked
  | queried _ _ _ hnone => cases hnone.symm.trans hasked
  | retried _ _ _ _ hpoised => cases hpoised.asked.symm.trans hasked
  | asked _ _ _ _ _ _ _ hasked' =>
    cases hasked'.symm.trans hasked
    exact .inr ⟨_, _, List.mem_cons_self⟩
  | started _ _ _ _ _ hpoised | attempted _ _ _ _ hpoised => cases hpoised.asked.symm.trans hasked

theorem CourseStep.queries_mem {id : VerificationId} (h : w.CourseStep w' seen)
    (hqueries : w'.control.queries = some id) : ∃ now deadline, (id, .queried now deadline) ∈ seen := by
  cases h with
  | kept _ hpoised => cases hpoised.queries.symm.trans hqueries
  | sent _ _ hnone => cases hnone.symm.trans hqueries
  | created _ _ _ hpoised => cases hpoised.queries.symm.trans hqueries
  | queried _ _ _ _ hsome =>
    cases hsome.symm.trans hqueries
    exact ⟨_, _, List.mem_cons_self⟩
  | retried _ _ _ _ hpoised => cases hpoised.queries.symm.trans hqueries
  | asked _ _ _ _ _ _ _ _ hnone => cases hnone.symm.trans hqueries
  | started _ _ _ _ _ hpoised | attempted _ _ _ _ hpoised => cases hpoised.queries.symm.trans hqueries

/-- A peer that is asked is new in the life of an entry only if it is being asked now. -/
theorem CourseStep.mem_askedPeers {id : VerificationId} {peer : PeerId} (h : w.CourseStep w' seen)
    (hpeer : peer ∈ askedPeers (life id (record ++ seen))) :
    peer ∈ askedPeers (life id record) ∨ w'.control.askedBy id = some peer := by
  have hquiet : ∀ {id' : VerificationId} {event : Seen}, event ≠ .removed → askedPeers [event] = [] →
      askedPeers (life id (record ++ [(id', event)])) = askedPeers (life id record) := by
    intro id' event hevent hquiet
    rw [life_append hevent, askedPeers_append]
    split
    · rw [hquiet, List.append_nil]
    · exact List.append_nil _
  cases h with
  | kept | sent | created | attempted => exact .inl (List.append_nil record ▸ hpeer)
  | queried | retried | started =>
    rw [hquiet (by nofun) rfl] at hpeer
    exact .inl hpeer
  | asked htime hcourse₀ hidle hasked hnew hlocal hkept hasked' =>
    rw [life_append (by nofun), askedPeers_append, List.mem_append] at hpeer
    refine hpeer.imp_right fun hnow => ?_
    split at hnow
    · rename_i hid
      cases hid
      obtain rfl := List.mem_singleton.1 hnow
      unfold Control.askedBy
      rw [hasked']
      simp
    · cases hnow

/-- What a step adds to a life. -/
theorem CourseStep.lives {id : VerificationId} {course : Course} (h : w.CourseStep w' seen)
    (hrecorded : w.Recorded record) (hrunning : w.Running) (hcourse : w'.course id = some course) :
    Lives w.localPeerId w.config.retrievalTimeout (life id (record ++ seen)) course := by
  -- an entry with the course that it had, and nothing of it in the record but queries and retries
  have hsame : ∀ {id' : VerificationId} {event : Seen}, w'.course id = w.course id → event ≠ .removed →
      (id' = id → askedPeers [event] = [] ∧ startTimes [event] = []) →
      Lives w.localPeerId w.config.retrievalTimeout (life id (record ++ [(id', event)])) course := by
    intro id' event hsame hevent hquiet
    obtain ⟨honce, hothers, hdeadline⟩ := hrecorded.lives id course (hsame ▸ hcourse)
    rw [life_append hevent]
    split
    · rename_i hid
      obtain ⟨hasked, hstarted⟩ := hquiet hid
      exact ⟨by rwa [askedPeers_append, hasked, List.append_nil],
        by rwa [askedPeers_append, hasked, List.append_nil], by rwa [startTimes_append, hstarted, List.append_nil]⟩
    · rw [List.append_nil]
      exact ⟨honce, hothers, hdeadline⟩
  cases h with
  | kept hkeeps hpoised =>
    rw [List.append_nil]
    rcases hkeeps id with hnone | hkept
    · cases hnone.symm.trans hcourse
    · exact hrecorded.lives id course (hkept ▸ hcourse)
  | sent hkept =>
    rw [List.append_nil]
    exact hrecorded.lives id course (hkept id ▸ hcourse)
  | created hnone hnew hothers hpoised =>
    rename_i id₀
    rw [List.append_nil]
    by_cases hid : id = id₀
    · subst hid
      cases hnew.symm.trans hcourse
      rw [hrecorded.gone id hnone]
      exact ⟨.nil, List.not_mem_nil, rfl⟩
    · exact hrecorded.lives id course (hothers id hid ▸ hcourse)
  | queried htime hcourse' hkept => exact hsame (hkept id) nofun fun _ => ⟨rfl, rfl⟩
  | retried hdelay hleft hcourse' hkept hpoised => exact hsame (hkept id) nofun fun _ => ⟨rfl, rfl⟩
  | asked htime hcourse' hidle hasked hnew hlocal hkept hasked' hqueries hpolled =>
    rename_i id₀ course₀ peer now deadline
    by_cases hid : id₀ = id
    · subst hid
      obtain rfl : course₀ = course := Option.some.inj (hcourse'.symm.trans ((hkept id₀).symm.trans hcourse))
      obtain ⟨honce, hothers, hdeadline⟩ := hrecorded.lives id₀ course₀ hcourse'
      -- a peer that was asked before was attempted since, and attempted peers are passed over
      have hunasked : peer ∉ askedPeers (life id₀ record) := by
        intro hpeer
        rcases hrecorded.known hrunning id₀ course₀ hcourse' peer hpeer with hattempted | ⟨requestId, hactive⟩ | hasking
        · exact hnew hattempted
        · cases hidle.symm.trans hactive
        · rw [Control.askedBy, hasked] at hasking
          cases hasking
      rw [life_append (by nofun), if_pos rfl]
      refine ⟨?_, ?_, ?_⟩
      · rw [askedPeers_append]
        exact List.nodup_append_comm.1 (List.nodup_cons.2 ⟨hunasked, honce⟩)
      · rw [askedPeers_append, List.mem_append, not_or]
        exact ⟨hothers, fun hmem => hlocal (List.mem_singleton.1 hmem).symm⟩
      · rw [startTimes_append]
        exact hdeadline.trans (congrArg _ (congrArg _ (List.append_nil _).symm))
    · exact hsame (hkept id) nofun fun heq => absurd heq hid
  | started hasked hcourse' hidle hstarted hothers hpoised =>
    rename_i id₀ course₀ peer requestId now
    by_cases hid : id₀ = id
    · subst hid
      cases hstarted.symm.trans hcourse
      obtain ⟨honce, hothers, hdeadline⟩ := hrecorded.lives id₀ course₀ hcourse'
      rw [life_append (by nofun), if_pos rfl]
      refine ⟨?_, ?_, ?_⟩
      · rw [askedPeers_append]
        exact (List.append_nil _).symm ▸ honce
      · rw [askedPeers_append]
        exact (List.append_nil _).symm ▸ hothers
      · rw [startTimes_append]
        simp only [hdeadline]
        cases startTimes (life id₀ record) <;> rfl
    · exact hsame (hothers id (Ne.symm hid)) nofun fun heq => absurd heq hid
  | attempted hpeer hcourse' hattempted hothers hpoised =>
    rename_i id₀ course₀ peer
    rw [List.append_nil]
    by_cases hid : id = id₀
    · subst hid
      cases hattempted.symm.trans hcourse
      obtain ⟨honce, hothers, hdeadline⟩ := hrecorded.lives id course₀ hcourse'
      exact ⟨honce, hothers, hdeadline⟩
    · exact hrecorded.lives id course (hothers id hid ▸ hcourse)

/-- The record after a step; `hsettled` says what becomes of a peer that is being asked. -/
theorem Recorded.step (h : w.Recorded record) (hstep : w.CourseStep w' seen) (hnode : w'.node = w.node)
    (hrunning : w.Running)
    (hsettled : w'.Running → ∀ id peer, w.control.askedBy id = some peer →
      ∀ course, w'.course id = some course → w'.Knows id course peer) :
    w'.Recorded (record ++ seen ++ (WorkerTask.removedIds w w').map (·, .removed)) where
  gone id hnone := by
    rw [life_append_removed]
    split
    · rfl
    · rename_i hkept
      rw [mem_removedIds, not_and] at hkept
      have hbefore : w.course id = none := by
        by_contra hsome
        exact hkept (Option.isSome_iff_ne_none.2 hsome) hnone
      -- nothing is seen of an entry that is not there
      rw [life_append_of_ne fun entry hentry heq => ?_]
      · exact h.gone id hbefore
      · have hsome := (hstep.of_mem entry hentry).1
        rw [heq, hbefore] at hsome
        cases hsome
  lives id course hcourse := by
    have hlocal : w'.localPeerId = w.localPeerId := congrArg Prod.fst hnode
    have hconfig : w'.config = w.config := congrArg Prod.snd hnode
    rw [life_of_course hcourse, hlocal, hconfig]
    exact hstep.lives h hrunning hcourse
  known hrunning' id course' hcourse' peer hpeer := by
    rw [life_of_course hcourse'] at hpeer
    rcases hstep.mem_askedPeers hpeer with hpeer | hasking
    · by_cases hasking : w.control.askedBy id = some peer
      · exact hsettled hrunning' id peer hasking course' hcourse'
      · cases hcourse : w.course id with
        | none =>
          rw [h.gone id hcourse] at hpeer
          cases hpeer
        | some course => exact hstep.knows hcourse hcourse' (h.known hrunning id course hcourse peer hpeer) hasking
    · exact .inr (.inr hasking)
  polled := hstep.polled h.polled
  within entry hentry := by
    have hconfig : w'.config = w.config := congrArg Prod.snd hnode
    rw [hconfig]
    rcases List.mem_append.1 hentry with hentry | hentry
    · rcases List.mem_append.1 hentry with hentry | hentry
      · exact h.within entry hentry
      · exact (hstep.of_mem entry hentry).2
    · obtain ⟨id, -, rfl⟩ := List.mem_map.1 hentry
      trivial

end Worker

namespace WorkerTask

variable {s t : WorkerTask} {a : WorkerAction} {config : P2pConfig}

theorem asked_of_askedBy {control : Control} {id : VerificationId} {peer : PeerId}
    (h : control.askedBy id = some peer) : control.asked = some (id, peer) := by
  obtain ⟨⟨id', peer'⟩, hasked, rfl⟩ := Option.map_eq_some_iff.1 h
  obtain ⟨hasked, hid⟩ := Option.filter_eq_some_iff.1 hasked
  rw [hasked, ← of_decide_eq_true hid]

theorem knows_next {id : VerificationId} {peer : PeerId} (hslots : s.worker.Slots config) (h : s.next a = some t)
    (hrunning : t.worker.Running) (hasking : s.worker.control.askedBy id = some peer)
    {course : Course} (hcourse : t.worker.course id = some course) : t.worker.Knows id course peer := by
  have hasked := asked_of_askedBy hasking
  unfold next at h
  split at h
  · split at h
    · rename_i hcontrol
      rw [hcontrol] at hasked
      cases hasked
    · cases h
  · split at h
    · rename_i call hcontrol
      cases h
      rw [hcontrol] at hasking
      refine .inr (.inr ?_)
      cases call <;> exact hasking
    · cases h
  · split at h
    · rename_i reply _ call hcontrol
      obtain ⟨worker, hresume, rfl⟩ := Option.map_eq_some_iff.1 h
      have hidle := hslots.waiting call hcontrol
      rw [hcontrol] at hasked
      cases call with
      | requestProof id' peer' rest =>
        cases hasked
        cases reply with
        | error error =>
          exact Worker.knows_resumeRequestProof (hidle id rfl) (Option.some.inj hresume) hrunning hcourse
        | ok reply =>
          cases reply with
          | requestId requestId =>
            exact Worker.knows_resumeRequestProof (hidle id rfl) (Option.some.inj hresume) hrunning hcourse
          | _ => cases hresume
      | _ => cases hasked
    · cases h
  · split at h
    · rename_i hcontrol
      rw [hcontrol] at hasked
      cases hasked
    · cases h

theorem running_of_next (h : s.next a = some t) : s.worker.Running := by
  intro result hreturned
  unfold next at h
  simp only [hreturned] at h
  split at h <;> cases h

theorem reachable_recorded {localPeerId : PeerId} {s : WorkerTask × List (VerificationId × Seen)}
    (hs : (recordedLts localPeerId config).Reachable s) :
    s.1.worker.Slots config ∧ s.1.worker.node = (localPeerId, config) ∧ s.1.worker.Recorded s.2 := by
  refine hs.invariant (P := fun s => s.1.worker.Slots config ∧ s.1.worker.node = (localPeerId, config) ∧
    s.1.worker.Recorded s.2) ?_ ?_
  · rintro ⟨s, record⟩ ⟨rfl, rfl⟩
    exact ⟨Worker.slots_new _ _, rfl, Worker.recorded_new⟩
  · rintro s a t - ⟨hslots, hnode, hrecorded⟩ hstep
    obtain ⟨hnext, hrecord⟩ := Lts.recorded_eq_some.1 hstep
    obtain ⟨seen', hcourses, hseen⟩ := courseStep_next hslots hrecorded.polled hnext
    have hsame := node_next hnext
    refine ⟨slots_next hslots hnext, hsame.trans hnode, ?_⟩
    rw [hrecord, hseen, ← List.append_assoc]
    exact hrecorded.step hcourses hsame (running_of_next hnext) fun hrunning id peer hasking course hcourse =>
      knows_next hslots hnext hrunning hasking hcourse

end WorkerTask

/-! ### The delay of a retry -/

/-- `1_u32.checked_shl(rhs)` -/
def checkedShl (rhs : Nat) : Option Nat := if rhs < 32 then some (1 <<< rhs % 2 ^ 32) else none

theorem checkedShl_min (round : Nat) : checkedShl (min round 31) = some (2 ^ min round 31) := by
  have hlt : min round 31 < 32 := by omega
  rw [checkedShl, if_pos hlt, Nat.shiftLeft_eq, Nat.one_mul, Nat.mod_eq_of_lt (Nat.pow_lt_pow_right (by decide) hlt)]

theorem retryCap_le (initial maximum : Duration) (round : Nat) :
    Worker.retryCap initial maximum round ≤ min (initial * 2 ^ round) maximum := by
  refine le_min ?_ (min_le_right _ _)
  calc min (min (initial * 2 ^ min round 31) durationMax) maximum
      ≤ initial * 2 ^ min round 31 := (min_le_left _ _).trans (min_le_left _ _)
    _ ≤ initial * 2 ^ round := Nat.mul_le_mul_left _ (Nat.pow_le_pow_right (by decide) (min_le_left _ _))

/-- Every retrieval is bounded from its creation to its removal: it asks a peer at most once and never the local one;
the transfer deadline is that of its first request and does not move; requests and queries start before their deadlines;
and a retry waits no longer than its backoff, nor than to the active deadline.  The backoff of any round is computed
without an overflow. -/
theorem retrieval_bounded (localPeerId : PeerId) (config : P2pConfig) {s : WorkerTask × List (VerificationId × Seen)}
    (hs : (WorkerTask.recordedLts localPeerId config).Reachable s) :
    (∀ id,
      (askedPeers (life id s.2)).Nodup ∧ localPeerId ∉ askedPeers (life id s.2) ∧
      (s.1.worker.entry id = none → life id s.2 = []) ∧
      ∀ state, s.1.worker.entry id = some state →
        state.transferDeadline = (startTimes (life id s.2)).head?.map (· + config.retrievalTimeout)) ∧
    (∀ a t, s.1.next a = some t →
      (∀ id state state' deadline, s.1.worker.entry id = some state → t.worker.entry id = some state' →
        state.transferDeadline = some deadline → state'.transferDeadline = some deadline) ∧
      (∀ id peer, t.worker.control.asked = some (id, peer) →
        s.1.worker.control.asked = some (id, peer) ∨ ∃ now deadline, (id, .asked peer now deadline) ∈ s.1.seen a t) ∧
      ∀ id, t.worker.control.queries = some id → ∃ now deadline, (id, .queried now deadline) ∈ s.1.seen a t) ∧
    (∀ id peer now deadline, (id, .asked peer now (some deadline)) ∈ s.2 → now < deadline) ∧
    (∀ id now deadline, (id, .queried now (some deadline)) ∈ s.2 → now < deadline) ∧
    (∀ id round delay left, (id, .retried round delay left) ∈ s.2 →
      delay ≤ min (config.retrievalInitialBackoff * 2 ^ round) config.retrievalMaxBackoff ∧ delay ≤ left) ∧
    ∀ round, ∃ multiplier, checkedShl (min round 31) = some multiplier ∧
      Worker.retryCap config.retrievalInitialBackoff config.retrievalMaxBackoff round =
        min (min (config.retrievalInitialBackoff * multiplier) durationMax) config.retrievalMaxBackoff := by
  obtain ⟨hslots, hnode, hrecorded⟩ := WorkerTask.reachable_recorded hs
  obtain rfl : s.1.worker.localPeerId = localPeerId := congrArg Prod.fst hnode
  obtain rfl : s.1.worker.config = config := congrArg Prod.snd hnode
  refine ⟨fun id => ?_, fun a t hnext => ?_, fun id peer now deadline hmem => ?_, fun id now deadline hmem => ?_,
    fun id round delay left hmem => ?_, fun round => ⟨_, checkedShl_min round, rfl⟩⟩
  · -- an entry that is gone has left no life behind
    have hgone : s.1.worker.entry id = none → life id s.2 = [] := fun hnone =>
      hrecorded.gone id (congrArg _ hnone)
    cases hentry : s.1.worker.entry id with
    | none =>
      rw [hgone hentry]
      exact ⟨.nil, List.not_mem_nil, fun _ => rfl, nofun⟩
    | some state =>
      obtain ⟨honce, hothers, hdeadline⟩ := hrecorded.lives id state.course (congrArg _ hentry)
      refine ⟨honce, hothers, nofun, ?_⟩
      rintro _ ⟨⟩
      exact hdeadline
  · obtain ⟨seen', hcourses, hseen⟩ := WorkerTask.courseStep_next hslots hrecorded.polled hnext
    rw [hseen]
    refine ⟨fun id state state' deadline hentry hentry' hdeadline => ?_, fun id peer hasked => ?_,
      fun id hqueries => ?_⟩
    · exact hcourses.transferDeadline (congrArg _ hentry) (congrArg _ hentry') hdeadline
    · exact (hcourses.asked_or hasked).imp_right fun ⟨now, deadline, hmem⟩ =>
        ⟨now, deadline, List.mem_append_left _ hmem⟩
    · obtain ⟨now, deadline, hmem⟩ := hcourses.queries_mem hqueries
      exact ⟨now, deadline, List.mem_append_left _ hmem⟩
  · exact hrecorded.within _ hmem deadline rfl
  · exact hrecorded.within _ hmem deadline rfl
  · obtain ⟨hdelay, hleft⟩ := hrecorded.within _ hmem
    exact ⟨hdelay.trans (retryCap_le _ _ round), hleft⟩

/-- A retrieval asks a peer that does not have the proof, then one that is not authorized, and then queries for more. -/
private def turnedDown : List WorkerAction :=
  let reply (now : Instant) (r : Except Error Reply) : List WorkerAction := [.send, .reply ⟨0, 1, now, now⟩ r]
  [.store (.ids []) 0] ++ reply 0 (.ok .unit) ++ [.store (.ids [.small]) 0, .store .waitingRecord 0] ++
    reply 4 (.ok (.providers [.here, .there])) ++ reply 5 (.ok (.requestId 1)) ++
    [.select (.driverEvent (.proofNotFound 1 .there .small) 8)] ++
    reply 9 (.ok (.providers [.there, .elsewhere])) ++ reply 10 (.error (.p2pAuthorization "not authorized")) ++
    reply 11 (.ok (.providers [.there, .elsewhere])) ++ reply 12 (.ok (.queryId NetworkOutcome.calm.queryId))

theorem retrieval_bounded_turned_down :
    ∃ s state, (WorkerTask.recordedLts .here .small).Reachable s ∧ s.1.worker.entry .small = some state ∧
      life .small s.2 =
        [.asked .there 4 none, .started 5, .asked .elsewhere 9 (some 65), .queried 11 (some 65), .retried 0 1 53] ∧
      state.transferDeadline = some 65 := by
  have hrun : (Lts.exec (Lts.recorded WorkerTask.next WorkerTask.seen) (WorkerTask.initial .here .small, [])
      turnedDown).any (fun s => (s.1.worker.entry .small).isSome && decide (life .small s.2 =
        [.asked .there 4 none, .started 5, .asked .elsewhere 9 (some 65), .queried 11 (some 65),
          .retried 0 1 53])) = true := by
    decide +kernel
  obtain ⟨s, hs, htest⟩ := (Option.any_eq_true _ _).1 hrun
  simp only [Bool.and_eq_true, Option.isSome_iff_exists, decide_eq_true_eq] at htest
  obtain ⟨⟨state, hentry⟩, hlife⟩ := htest
  have hreachable : (WorkerTask.recordedLts .here .small).Reachable s := ⟨_, _, ⟨rfl, rfl⟩, Lts.run_of_exec hs⟩
  have hdeadline := ((retrieval_bounded _ _ hreachable).1 .small).2.2.2 state hentry
  rw [hlife] at hdeadline
  exact ⟨s, state, hreachable, hentry, hlife, hdeadline⟩

end PulsarVerifier
