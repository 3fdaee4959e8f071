import PulsarVerifier.Chain.Client

/-!
# Recovery over several pages

`proofs_by_height` reads one page after the other and keeps its checks in the variables of the loop.  Over a whole
query they amount to a property of the pages (`Paged`): the records of all pages together are valid and strictly
ordered, and every page but the last one has records and a continuation key of its own.  The result is a function of
the records alone.  Since a page that is continued has a record, and there are no more than `maxProofsPerBlock` indices,
the loop ends.
-/

namespace PulsarVerifier

namespace Chain

/-- A page that is answered in time and decoded. -/
structure Page where
  height : Nat
  log : String
  proofs : List QueryProofResponse
  nextKey : Bytes

def Page.query (page : Page) : AbciQuery := ⟨page.height, 0, page.log, .ok ⟨page.proofs, page.nextKey⟩⟩

def Page.answer (page : Page) : RpcAnswer AbciQuery := .answered page.query

def records (pages : List Page) : List QueryProofResponse := pages.flatMap Page.proofs

def QueryProofResponse.index (response : QueryProofResponse) : Nat :=
  (response.proofKey.map ProofKey.indexInBlock).getD 0

section

variable [Sha256]

/-- The pending requests among records that are valid at `height`. -/
def pendingProofs (height : Nat) (responses : List QueryProofResponse) : List ChainProof :=
  responses.filterMap fun response =>
    match validateQueryProof response height with
    | .ok result => result
    | .error _ => none

/-- The records are valid at `height`, and their indices increase. -/
structure Ordered (height : Nat) (responses : List QueryProofResponse) : Prop where
  valid : ∀ response ∈ responses, ∃ result, validateQueryProof response height = .ok result
  increasing : (responses.map QueryProofResponse.index).Pairwise (· < ·)

/-- The pages of a whole query: only the last one has no continuation key, and no other page is empty. -/
structure Paged (height : Nat) (pages : List Page) : Prop where
  ordered : Ordered height (records pages)
  sameHeight : ∀ page ∈ pages, ∀ page' ∈ pages, page.height = page'.height
  continued : ∃ init last, pages = init ++ [last] ∧ last.nextKey = [] ∧
    (∀ page ∈ init, page.nextKey ≠ [] ∧ page.proofs ≠ []) ∧ (init.map Page.nextKey).Nodup

/-! ### Records -/

variable {height : Nat} {done responses : List QueryProofResponse} {response : QueryProofResponse}
  {state state' : PageState}

omit [Sha256] in
theorem forall_lt_iff_getLast? {l : List Nat} (h : l.Pairwise (· < ·)) (n : Nat) :
    (∀ i ∈ l, i < n) ↔ ∀ i ∈ l.getLast?, i < n := by
  rcases List.eq_nil_or_concat' l with rfl | ⟨init, last, rfl⟩
  · simp
  · rw [List.pairwise_append] at h
    constructor
    · intro hall i hi
      rw [List.getLast?_concat] at hi
      cases hi
      exact hall _ (by simp)
    · intro hlast i hi
      have hlast : last < n := hlast last (by simp)
      rcases List.mem_append.1 hi with hinit | hmem
      · exact (h.2.2 i hinit last List.mem_cons_self).trans hlast
      · rw [List.mem_singleton.1 hmem]
        exact hlast

theorem ordered_concat_iff :
    Ordered height (done ++ [response]) ↔ Ordered height done ∧
      (∃ result, validateQueryProof response height = .ok result) ∧
      ∀ i ∈ (done.map QueryProofResponse.index).getLast?, i < response.index := by
  constructor
  · intro h
    have hincreasing := h.increasing
    rw [List.map_append, List.pairwise_append] at hincreasing
    refine ⟨⟨fun r hr => h.valid r (List.mem_append_left _ hr), hincreasing.1⟩, h.valid response (by simp), ?_⟩
    exact (forall_lt_iff_getLast? hincreasing.1 _).1 fun i hi => hincreasing.2.2 i hi _ (by simp)
  · rintro ⟨hdone, hvalid, hlast⟩
    refine ⟨fun r hr => ?_, ?_⟩
    · rcases List.mem_append.1 hr with hr | hr
      · exact hdone.valid r hr
      · rw [List.mem_singleton.1 hr]
        exact hvalid
    · rw [List.map_append, List.pairwise_append]
      refine ⟨hdone.increasing, List.pairwise_singleton _ _, fun i hi j hj => ?_⟩
      rw [List.mem_singleton.1 hj]
      exact (forall_lt_iff_getLast? hdone.increasing _).2 hlast i hi

theorem Ordered.of_append (h : Ordered height (done ++ responses)) : Ordered height done := by
  have hincreasing := h.increasing
  rw [List.map_append, List.pairwise_append] at hincreasing
  exact ⟨fun r hr => h.valid r (List.mem_append_left _ hr), hincreasing.1⟩

theorem validateQueryProof_key {result : Option ChainProof} (h : validateQueryProof response height = .ok result) :
    response.proofKey = some ⟨height, response.index⟩ ∧ response.index < maxProofsPerBlock := by
  unfold validateQueryProof at h
  split at h
  · cases h
  · rename_i key hkey
    obtain ⟨_, hposition, -⟩ := Except.bind_eq_ok_iff.1 h
    obtain ⟨hheight, -, hindex⟩ := validatePosition_eq_ok_iff.1 hposition
    obtain ⟨submissionHeight, indexInBlock⟩ := key
    cases hheight
    simp only [QueryProofResponse.index, hkey, Option.map_some, Option.getD_some]
    exact ⟨trivial, hindex⟩

theorem Ordered.length_le (h : Ordered height responses) : responses.length ≤ maxProofsPerBlock := by
  have hnodup : (responses.map QueryProofResponse.index).Nodup := h.increasing.imp Nat.ne_of_lt
  have hsubset : responses.map QueryProofResponse.index ⊆ List.range maxProofsPerBlock := by
    intro i hi
    obtain ⟨r, hr, rfl⟩ := List.mem_map.1 hi
    obtain ⟨result, hresult⟩ := h.valid r hr
    exact List.mem_range.2 (validateQueryProof_key hresult).2
  have hlength := (List.subperm_of_subset hnodup hsubset).length_le
  rwa [List.length_map, List.length_range] at hlength

/-- The variables of the loop after the records `done`. -/
structure Read (height : Nat) (done : List QueryProofResponse) (state : PageState) : Prop where
  ordered : Ordered height done
  proofs : state.proofs = pendingProofs height done
  positions : state.positions = (done.map fun response => (height, response.index)).reverse
  lastIndex : state.lastIndex = (done.map QueryProofResponse.index).getLast?

/-- The variables after the records `responses`. -/
def PageState.added (height : Nat) (state : PageState) (responses : List QueryProofResponse) : PageState :=
  { state with
    proofs := state.proofs ++ pendingProofs height responses
    positions := (responses.map fun response => (height, response.index)).reverse ++ state.positions
    lastIndex := (responses.map QueryProofResponse.index).getLast?.or state.lastIndex }

theorem Read.added (h : Read height done state) (hordered : Ordered height (done ++ responses)) :
    Read height (done ++ responses) (state.added height responses) where
  ordered := hordered
  proofs := by simp [PageState.added, h.proofs, pendingProofs]
  positions := by simp [PageState.added, h.positions]
  lastIndex := by simp [PageState.added, h.lastIndex, List.getLast?_append]

open Except in
/-- A record is taken if it is valid and comes after the records before it; it is then at a new position. -/
theorem Read.addRecord_eq_ok_iff (h : Read height done state) :
    addRecord height state response = .ok state' ↔
      Ordered height (done ++ [response]) ∧ state' = state.added height [response] := by
  have hadded : ∀ result, validateQueryProof response height = .ok result →
      state.added height [response] =
        { state with
          proofs := state.proofs ++ result.toList
          positions := (height, response.index) :: state.positions
          lastIndex := some response.index } := by
    intro result hresult
    simp only [PageState.added, pendingProofs, List.filterMap_cons, List.filterMap_nil, hresult]
    cases result <;> rfl
  rw [ordered_concat_iff, ← h.lastIndex]
  unfold addRecord
  split
  · rename_i hnone
    constructor
    · intro hfail
      cases hfail
    · rintro ⟨⟨-, ⟨result, hresult⟩, -⟩, -⟩
      rw [(validateQueryProof_key hresult).1] at hnone
      cases hnone
  · rename_i key hkey
    simp only [bind_eq_ok_iff, rejectIf_eq_ok_iff, exists_const, Option.any_eq_true, decide_eq_true_eq]
    constructor
    · rintro ⟨-, horder, result, hresult, hstate⟩
      cases hstate
      have hindex : key = ⟨height, response.index⟩ :=
        Option.some.inj (hkey.symm.trans (validateQueryProof_key hresult).1)
      rw [hadded result hresult]
      subst hindex
      refine ⟨⟨h.ordered, ⟨result, hresult⟩, fun i hi => ?_⟩, rfl⟩
      exact not_le.1 fun hle => horder ⟨i, hi, hle⟩
    · rintro ⟨⟨-, ⟨result, hresult⟩, hlast⟩, rfl⟩
      obtain rfl : key = ⟨height, response.index⟩ :=
        Option.some.inj (hkey.symm.trans (validateQueryProof_key hresult).1)
      refine ⟨fun hmem => ?_, ?_, result, hresult, ?_⟩
      · -- a position that was seen has an index that is not larger than the last one
        rw [h.positions, List.mem_reverse] at hmem
        obtain ⟨r, hr, hposition⟩ := List.mem_map.1 hmem
        rw [h.lastIndex] at hlast
        have hlt := (forall_lt_iff_getLast? h.ordered.increasing _).2 hlast r.index (List.mem_map_of_mem hr)
        exact absurd (congrArg Prod.snd hposition) hlt.ne
      · rintro ⟨i, hi, hle⟩
        exact absurd (hlast i hi) (not_lt.2 hle)
      · rw [hadded result hresult]
        rfl

theorem Read.foldlM_addRecord_eq_ok_iff (h : Read height done state) :
    responses.foldlM (addRecord height) state = .ok state' ↔
      Ordered height (done ++ responses) ∧ state' = state.added height responses := by
  -- on the records that are left; `done` and the state move along
  induction responses generalizing done state with
  | nil =>
    have hadded : state.added height [] = state := by
      simp [PageState.added, pendingProofs]
    rw [List.append_nil, hadded, List.foldlM_nil]
    exact ⟨fun hstate => ⟨h.ordered, (Except.ok.inj hstate).symm⟩, fun hstate => congrArg Except.ok hstate.2.symm⟩
  | cons first responses ih =>
    have hconcat : done ++ first :: responses = (done ++ [first]) ++ responses := by simp
    have hadded : (state.added height [first]).added height responses = state.added height (first :: responses) := by
      have hproofs : state.proofs ++ pendingProofs height [first] ++ pendingProofs height responses =
          state.proofs ++ pendingProofs height (first :: responses) := by
        rw [List.append_assoc]
        exact congrArg _ List.filterMap_append.symm
      have hlast : (responses.map QueryProofResponse.index).getLast?.or (some first.index) =
          ((first :: responses).map QueryProofResponse.index).getLast?.or state.lastIndex := by
        rw [List.map_cons, List.getLast?_cons]
        cases (responses.map QueryProofResponse.index).getLast? <;> rfl
      simp only [PageState.added, PageState.mk.injEq]
      exact ⟨trivial, hproofs, by simp, trivial, hlast, trivial⟩
    rw [List.foldlM_cons, Except.bind_eq_ok_iff, hconcat]
    constructor
    · rintro ⟨next, hnext, hrest⟩
      obtain ⟨hordered, rfl⟩ := h.addRecord_eq_ok_iff.1 hnext
      rw [← hadded]
      exact (ih (h.added hordered)).1 hrest
    · rintro ⟨hordered, rfl⟩
      have hfirst := hordered.of_append
      refine ⟨_, h.addRecord_eq_ok_iff.2 ⟨hfirst, rfl⟩, ?_⟩
      exact (ih (h.added hfirst)).2 ⟨hordered, hadded.symm⟩

/-! ### Pages -/

variable {done : List Page} {page : Page} {answers later : List (RpcAnswer AbciQuery)}

omit [Sha256] in
open Except in
theorem pinQueryHeight_eq_ok_iff {pinned result : Option Nat} {response : Nat} :
    pinQueryHeight pinned response = .ok result ↔ (∀ expected ∈ pinned, expected = response) ∧
      result = some response := by
  cases pinned with
  | none =>
    simp only [pinQueryHeight, Except.ok.injEq, Option.not_mem_none, false_imp_iff, implies_true, true_and]
    exact eq_comm
  | some expected =>
    simp only [pinQueryHeight, bind_eq_ok_iff, rejectIf_eq_ok_iff, exists_const, ne_eq, not_not, Option.mem_some_iff,
      forall_eq']
    constructor
    · rintro ⟨rfl, hresult⟩
      exact ⟨rfl, (Except.ok.inj hresult).symm⟩
    · rintro ⟨rfl, rfl⟩
      exact ⟨rfl, rfl⟩

/-- The variables at the head of the loop, after the pages `done`. -/
structure Head (height : Nat) (done : List Page) (state : PageState) : Prop where
  read : Read height (records done) state
  queryHeight : state.queryHeight = done.head?.map Page.height
  sameHeight : ∀ page ∈ done, ∀ page' ∈ done, page.height = page'.height
  continued : ∀ page ∈ done, page.nextKey ≠ [] ∧ page.proofs ≠ []
  keys : state.nextKey :: state.paginationKeys = (done.map Page.nextKey).reverse ++ [[]]
  distinct : state.paginationKeys.Nodup

theorem head_new : Head height [] .new where
  read := ⟨⟨(fun _ h => nomatch h), .nil⟩, rfl, rfl, rfl⟩
  queryHeight := rfl
  sameHeight _ h := nomatch h
  continued _ h := nomatch h
  keys := rfl
  distinct := .nil

theorem Head.fresh_iff (h : Head height done state) :
    state.nextKey ∉ state.paginationKeys ↔ (done.map Page.nextKey).Nodup := by
  have hkeys : (state.nextKey :: state.paginationKeys).Nodup ↔ ((done.map Page.nextKey).reverse ++ [[]]).Nodup := by
    rw [h.keys]
  rw [List.nodup_cons, List.nodup_append, List.nodup_reverse] at hkeys
  constructor
  · intro hfresh
    exact (hkeys.1 ⟨hfresh, h.distinct⟩).1
  · intro hnodup
    refine (hkeys.2 ⟨hnodup, List.nodup_singleton _, fun key hkey key' hkey' => ?_⟩).1
    obtain ⟨page, hpage, rfl⟩ := List.mem_map.1 (List.mem_reverse.1 hkey)
    rw [List.mem_singleton.1 hkey']
    exact (h.continued page hpage).1

def PageState.turned (height : Nat) (state : PageState) (page : Page) : PageState :=
  { state.added height page.proofs with
    nextKey := page.nextKey, paginationKeys := state.nextKey :: state.paginationKeys, queryHeight := some page.height }

omit [Sha256] in
theorem records_concat : records (done ++ [page]) = records done ++ page.proofs := by
  simp [records]

open Except in
theorem Head.addPage_eq_ok_iff (h : Head height done state) {query : AbciQuery} :
    addPage height { state with paginationKeys := state.nextKey :: state.paginationKeys } query = .ok state' ↔
      ∃ page : Page, query = page.query ∧ (∀ page' ∈ done, page'.height = page.height) ∧
        Ordered height (records (done ++ [page])) ∧ (page.nextKey ≠ [] → page.proofs ≠ []) ∧
        state' = state.turned height page := by
  -- the first page fixes the height of the query, and the pages that were read agree
  have hpinned : ∀ response, (∀ expected ∈ state.queryHeight, expected = response) ↔
      ∀ page ∈ done, page.height = response := by
    intro response
    rw [h.queryHeight]
    have hsame := h.sameHeight
    cases done with
    | nil => simp
    | cons first done =>
      simp only [List.head?_cons, Option.map_some, Option.mem_some_iff, forall_eq']
      constructor
      · rintro rfl page hpage
        exact hsame page hpage first List.mem_cons_self
      · exact fun hall => hall first List.mem_cons_self
  have hread : ∀ queryHeight, Read height (records done)
      { state with paginationKeys := state.nextKey :: state.paginationKeys, queryHeight } := fun _ =>
    ⟨h.read.ordered, h.read.proofs, h.read.positions, h.read.lastIndex⟩
  unfold addPage
  simp only [bind_eq_ok_iff, rejectIf_eq_ok_iff, exists_const, pinQueryHeight_eq_ok_iff, hpinned, ne_eq, not_not]
  constructor
  · rintro ⟨queryHeight, ⟨hheights, rfl⟩, hcode, hrest⟩
    obtain ⟨responseHeight, code, log, value⟩ := query
    cases hcode
    split at hrest
    · cases hrest
    · rename_i decoded hvalue
      cases hvalue
      simp only [bind_eq_ok_iff, rejectIf_eq_ok_iff, exists_const, (hread _).foldlM_addRecord_eq_ok_iff] at hrest
      obtain ⟨_, ⟨hordered, rfl⟩, -, hnonempty, hstate⟩ := hrest
      cases hstate
      refine ⟨⟨responseHeight, log, decoded.proofs, decoded.nextKey⟩, rfl, hheights, ?_, fun hkey hempty => ?_, rfl⟩
      · rw [records_concat]
        exact hordered
      · exact hnonempty ⟨hkey, hempty⟩
  · rintro ⟨page, rfl, hheights, hordered, hnonempty, rfl⟩
    rw [records_concat] at hordered
    refine ⟨_, ⟨hheights, rfl⟩, rfl, ?_⟩
    simp only [Page.query, bind_eq_ok_iff, rejectIf_eq_ok_iff, exists_const, (hread _).foldlM_addRecord_eq_ok_iff]
    refine ⟨_, ⟨hordered, rfl⟩, ?_, ?_, rfl⟩
    · -- as many positions as records
      have hpositions := ((hread (some page.height)).added hordered).positions
      rw [hpositions, List.length_reverse, List.length_map]
      exact not_lt.2 hordered.length_le
    · rintro ⟨hkey, hempty⟩
      exact hnonempty hkey hempty

/-! ### The loop -/

/-- The page `page` can be read after the pages `done`. -/
structure Follows (height : Nat) (done : List Page) (page : Page) : Prop where
  fresh : (done.map Page.nextKey).Nodup
  sameHeight : ∀ page' ∈ done, page'.height = page.height
  ordered : Ordered height (records (done ++ [page]))
  nonempty : page.nextKey ≠ [] → page.proofs ≠ []

theorem Follows.heights (hpage : Follows height done page) :
    ∀ p ∈ done ++ [page], ∀ q ∈ done ++ [page], p.height = q.height := by
  have hall : ∀ p ∈ done ++ [page], p.height = page.height := by
    intro p hp
    rcases List.mem_append.1 hp with hp | hp
    · exact hpage.sameHeight p hp
    · rw [List.mem_singleton.1 hp]
  intro p hp q hq
  exact (hall p hp).trans (hall q hq).symm

theorem Head.turned (h : Head height done state) (hpage : Follows height done page) (hkey : page.nextKey ≠ []) :
    Head height (done ++ [page]) (state.turned height page) := by
  have hordered := hpage.ordered
  rw [records_concat] at hordered
  have hread := h.read.added hordered
  refine ⟨?_, ?_, hpage.heights, ?_, ?_, ?_⟩
  · rw [records_concat]
    exact ⟨hordered, hread.proofs, hread.positions, hread.lastIndex⟩
  · cases done with
    | nil => rfl
    | cons first done => exact congrArg some (hpage.sameHeight first List.mem_cons_self).symm
  · intro p hp
    rcases List.mem_append.1 hp with hp | hp
    · exact h.continued p hp
    · rw [List.mem_singleton.1 hp]
      exact ⟨hkey, hpage.nonempty hkey⟩
  · change page.nextKey :: (state.nextKey :: state.paginationKeys) = _
    rw [h.keys]
    simp
  · exact List.nodup_cons.2 ⟨h.fresh_iff.2 hpage.fresh, h.distinct⟩

open Except in
theorem Head.pages_of_follows (h : Head height done state) (hpage : Follows height done page)
    (answers : List (RpcAnswer AbciQuery)) :
    pages height state (page.answer :: answers) =
      if page.nextKey = [] then .ok (pendingProofs height (records (done ++ [page])))
      else pages height (state.turned height page) answers := by
  have hfresh : rejectIf (state.nextKey ∈ state.paginationKeys)
      (Error.invalidChainContract "ProofsByHeight repeated a pagination key") = .ok () :=
    rejectIf_eq_ok_iff.2 (h.fresh_iff.2 hpage.fresh)
  have hadded := h.addPage_eq_ok_iff.2 ⟨page, rfl, hpage.sameHeight, hpage.ordered, hpage.nonempty, rfl⟩
  have hordered := hpage.ordered
  rw [records_concat] at hordered
  rw [pages, hfresh, records_concat, ← (h.read.added hordered).proofs]
  change (addPage height { state with paginationKeys := state.nextKey :: state.paginationKeys } page.query >>= _) = _
  rw [hadded]
  rfl

open Except in
/-- A round without a page that follows ends the loop with an error, whatever would come later. -/
theorem Head.pages_cases (h : Head height done state) (answer : RpcAnswer AbciQuery) :
    (∃ error, ∀ answers, pages height state (answer :: answers) = .error error) ∨
      ∃ page, answer = page.answer ∧ Follows height done page := by
  by_cases hfresh : state.nextKey ∈ state.paginationKeys
  · refine .inl ⟨.invalidChainContract "ProofsByHeight repeated a pagination key", fun answers => ?_⟩
    rw [pages, rejectIf, if_pos hfresh]
    rfl
  · -- the later answers have no part in the checks of this round
    have hround : ∀ answers, pages height state (answer :: answers) =
        (withTimeout "ProofsByHeight" answer >>= fun query =>
          addPage height { state with paginationKeys := state.nextKey :: state.paginationKeys } query >>= fun state' =>
            if state'.nextKey = [] then pure state'.proofs else pages height state' answers) := by
      intro answers
      rw [pages, rejectIf, if_neg hfresh]
      rfl
    cases answer with
    | timedOut | failed error => exact .inl ⟨_, hround⟩
    | answered query =>
      cases hadded : addPage height { state with paginationKeys := state.nextKey :: state.paginationKeys } query with
      | error error =>
        refine .inl ⟨error, fun answers => (hround answers).trans ?_⟩
        change (addPage height _ query >>= _) = _
        rw [hadded]
        rfl
      | ok state' =>
        obtain ⟨page, rfl, hheights, hordered, hnonempty, -⟩ := h.addPage_eq_ok_iff.1 hadded
        exact .inr ⟨page, rfl, h.fresh_iff.1 hfresh, hheights, hordered, hnonempty⟩

/-- A query that succeeds has read the pages of a whole query. -/
theorem Head.paged_of_pages (h : Head height done state) {proofs : List ChainProof}
    (hok : pages height state answers = .ok proofs) :
    ∃ rest later, answers = rest.map Page.answer ++ later ∧ Paged height (done ++ rest) ∧
      proofs = pendingProofs height (records (done ++ rest)) := by
  induction answers generalizing done state with
  | nil =>
    rw [pages] at hok
    obtain ⟨_, -, hok⟩ := Except.bind_eq_ok_iff.1 hok
    cases hok
  | cons answer answers ih =>
    rcases h.pages_cases answer with ⟨error, herror⟩ | ⟨page, rfl, hpage⟩
    · rw [herror] at hok
      cases hok
    · rw [h.pages_of_follows hpage] at hok
      split at hok
      · rename_i hlast
        cases hok
        refine ⟨[page], answers, rfl, ⟨hpage.ordered, ?_, done, page, rfl, hlast, h.continued, hpage.fresh⟩, rfl⟩
        exact hpage.heights
      · rename_i hmore
        obtain ⟨rest, later, rfl, hpaged, hproofs⟩ := ih (h.turned hpage hmore) hok
        refine ⟨page :: rest, later, rfl, ?_, ?_⟩
        · rwa [List.append_cons]
        · rwa [List.append_cons]

/-- Conversely, the pages of a whole query are read to their end, whatever comes later. -/
theorem Head.pages_of_paged (h : Head height done state) {more : List Page} {last : Page}
    (hordered : Ordered height (records (done ++ (more ++ [last]))))
    (hheights : ∀ page ∈ done ++ (more ++ [last]), page.height = last.height) (hlast : last.nextKey = [])
    (hmore : ∀ page ∈ more, page.nextKey ≠ [] ∧ page.proofs ≠ []) (hkeys : ((done ++ more).map Page.nextKey).Nodup) :
    pages height state ((more ++ [last]).map Page.answer ++ later) =
      .ok (pendingProofs height (records (done ++ (more ++ [last])))) := by
  have hfresh : (done.map Page.nextKey).Nodup := by
    rw [List.map_append] at hkeys
    exact hkeys.of_append_left
  induction more generalizing done state with
  | nil =>
    have hfollows : Follows height done last :=
      ⟨hfresh, fun page hpage => hheights page (List.mem_append_left _ hpage), hordered, fun hkey => absurd hlast hkey⟩
    exact (h.pages_of_follows hfollows later).trans (if_pos hlast)
  | cons page more ih =>
    have hpage := hmore page List.mem_cons_self
    have hrecords : records (done ++ (page :: more ++ [last])) =
        records (done ++ [page]) ++ records (more ++ [last]) := by
      simp [records]
    have hfollows : Follows height done page := by
      refine ⟨hfresh, fun page' hpage' => ?_, ?_, fun _ => hpage.2⟩
      · rw [hheights page' (List.mem_append_left _ hpage'), hheights page (by simp)]
      · rw [hrecords] at hordered
        exact hordered.of_append
    have hcons : done ++ (page :: more ++ [last]) = (done ++ [page]) ++ (more ++ [last]) := by simp
    rw [hcons] at hordered hheights ⊢
    rw [List.append_cons] at hkeys
    refine (h.pages_of_follows hfollows _).trans ((if_neg hpage.1).trans ?_)
    exact ih (h.turned hfollows hpage.1) hordered hheights (fun p hp => hmore p (List.mem_cons_of_mem _ hp)) hkeys
      (by rw [List.map_append] at hkeys; exact hkeys.of_append_left)

/-- No more than `maxProofsPerBlock` pages are continued. -/
theorem Head.length_le (h : Head height done state) : done.length ≤ maxProofsPerBlock := by
  refine le_trans ?_ h.read.ordered.length_le
  have hcontinued := h.continued
  clear h
  -- every page that is continued has a record of its own
  induction done with
  | nil => exact Nat.zero_le _
  | cons page done ih =>
    have hpos : 0 < page.proofs.length := List.length_pos_of_ne_nil (hcontinued page List.mem_cons_self).2
    have hrest := ih fun p hp => hcontinued p (List.mem_cons_of_mem _ hp)
    simp only [records, List.flatMap_cons, List.length_append, List.length_cons] at hrest ⊢
    omega

/-- The loop ends within `maxProofsPerBlock + 1` pages: later ones do not matter. -/
theorem Head.pages_append (h : Head height done state)
    (hlength : maxProofsPerBlock + 1 ≤ done.length + answers.length) :
    pages height state (answers ++ later) = pages height state answers := by
  induction answers generalizing done state with
  | nil =>
    have hle := h.length_le
    rw [List.length_nil] at hlength
    omega
  | cons answer answers ih =>
    rw [List.cons_append]
    rcases h.pages_cases answer with ⟨error, herror⟩ | ⟨page, rfl, hpage⟩
    · rw [herror, herror]
    · rw [h.pages_of_follows hpage, h.pages_of_follows hpage]
      split
      · rfl
      · rename_i hmore
        refine ih (h.turned hpage hmore) ?_
        rw [List.length_append, List.length_singleton]
        rw [List.length_cons] at hlength
        omega

/-! ### Pending requests -/

omit [Sha256] in
/-- The records that are pending, with their keys. -/
def pendingRecords (responses : List QueryProofResponse) : List (ProofKey × ProofRecord) :=
  responses.filterMap fun response =>
    match response.proofKey, response.state with
    | some key, some (.pending record) => some (key, record)
    | _, _ => none

/-- The request of a pending record: the position is the one of the key, and the identifier is the one of the record and
the one that its descriptor hashes to. -/
structure Describes (entry : ProofKey × ProofRecord) (proof : ChainProof) : Prop where
  submissionHeight : proof.submissionHeight = entry.1.submissionHeight
  indexInBlock : proof.indexInBlock = entry.1.indexInBlock
  verificationId : entry.2.HashesTo proof.verificationId

open Except in
/-- The pending requests are those of the pending records, one by one. -/
theorem describes_pendingProofs
    (h : ∀ response ∈ responses, ∃ result, validateQueryProof response height = .ok result) :
    List.Forall₂ Describes (pendingRecords responses) (pendingProofs height responses) := by
  induction responses with
  | nil => exact .nil
  | cons response responses ih =>
    have hrest := ih fun r hr => h r (List.mem_cons_of_mem _ hr)
    obtain ⟨result, hresult⟩ := h response List.mem_cons_self
    have hresult' := hresult
    unfold validateQueryProof at hresult'
    unfold pendingRecords pendingProofs
    rw [List.filterMap_cons, List.filterMap_cons, hresult]
    split at hresult'
    · cases hresult'
    · rename_i key hkey
      rw [hkey]
      obtain ⟨_, -, hresult'⟩ := bind_eq_ok_iff.1 hresult'
      split at hresult'
      · rename_i record hstate
        rw [hstate]
        obtain ⟨id, hid, hresult'⟩ := bind_eq_ok_iff.1 hresult'
        cases hresult'
        exact .cons ⟨rfl, rfl, validatePendingDescriptor_eq_ok_iff.1 hid⟩ hrest
      · rename_i record hstate
        rw [hstate]
        obtain ⟨_, -, hresult'⟩ := bind_eq_ok_iff.1 hresult'
        obtain ⟨_, -, hresult'⟩ := bind_eq_ok_iff.1 hresult'
        cases hresult'
        exact hrest
      · cases hresult'

theorem Paged.listed_eq {ps : List Page} (h : Paged height ps) (later : List (RpcAnswer AbciQuery)) :
    listed (ps.map Page.answer ++ later) = records ps := by
  obtain ⟨init, last, rfl, hlast, hmore, -⟩ := h.continued
  clear h
  induction init with
  | nil => simp [listed, Page.answer, Page.query, records, hlast]
  | cons page init ih =>
    have hrest := ih fun p hp => hmore p (List.mem_cons_of_mem _ hp)
    have hkey := (hmore page List.mem_cons_self).1
    simpa [listed, Page.answer, Page.query, records, hkey] using hrest

end

end Chain

open Chain

open Except in
theorem paged_of_proofsByHeight [Sha256] {height : Nat} {answers : List (RpcAnswer AbciQuery)}
    {proofs : List ChainProof} (h : proofsByHeight height answers = .ok proofs) :
    ∃ ps later, answers = ps.map Page.answer ++ later ∧ Paged height ps ∧
      proofs = pendingProofs height (records ps) := by
  unfold proofsByHeight at h
  simp only [bind_eq_ok_iff, rejectIf_eq_ok_iff, exists_const] at h
  exact head_new.paged_of_pages h.2

/-- Every pending request that the pages list is recovered. -/
theorem proofsByHeight_pending [Sha256] {height : Nat} {answers : List (RpcAnswer AbciQuery)}
    {proofs : List ChainProof} (h : proofsByHeight height answers = .ok proofs) {response : QueryProofResponse}
    (hresponse : response ∈ listed answers) {record : Chain.ProofRecord} {id : VerificationId}
    (hstate : response.state = some (.pending record)) (hid : record.verificationId = id.bytes.1) :
    ∃ proof ∈ proofs, proof.verificationId = id := by
  obtain ⟨ps, later, rfl, hps, rfl⟩ := paged_of_proofsByHeight h
  rw [hps.listed_eq] at hresponse
  obtain ⟨result, hresult⟩ := hps.ordered.valid response hresponse
  obtain ⟨proof, rfl, hproof⟩ := validateQueryProof_pending hstate hid hresult
  refine ⟨proof, List.mem_filterMap.2 ⟨response, hresponse, ?_⟩, hproof⟩
  rw [hresult]

open Except in
/-- The recovery of the requests of one height.  Whatever the node answers, the loop ends after at most 257 requests:
what would be answered later does not matter.  If it succeeds, then it has read the pages of a whole query: all answers
have the same height; the records are valid at the height that was asked for, and their indices increase over all pages
and are below 256; only the last page has no continuation key, no other page is empty, and no key repeats.  The result
are the pending records of all pages, in their order.  And for the pages of a whole query it succeeds, with a result
that depends on the records alone, not on how they are split. -/
theorem proofsByHeight_exact [Sha256] (height : Nat) (hheight : 1 ≤ height) :
    (∀ replies : Nat → RpcAnswer AbciQuery, ∃ n ≤ 257, ∃ result, ∀ later,
      proofsByHeight height ((List.range n).map replies ++ later) = result) ∧
    (∀ answers proofs, proofsByHeight height answers = .ok proofs →
      ∃ pages later, answers = pages.map Page.answer ++ later ∧ Paged height pages ∧
        (∀ response ∈ records pages, response.proofKey = some ⟨height, response.index⟩ ∧ response.index < 256) ∧
        List.Forall₂ Describes (pendingRecords (records pages)) proofs) ∧
    ∀ pages pages' later later', Paged height pages → Paged height pages' → records pages = records pages' →
      ∃ proofs, proofsByHeight height (pages.map Page.answer ++ later) = .ok proofs ∧
        proofsByHeight height (pages'.map Page.answer ++ later') = .ok proofs := by
  have hpages : ∀ answers, proofsByHeight height answers = pages height .new answers := by
    intro answers
    rw [proofsByHeight, rejectIf, if_neg (by omega)]
    rfl
  have hpaged : ∀ ps later, Paged height ps →
      proofsByHeight height (ps.map Page.answer ++ later) = .ok (pendingProofs height (records ps)) := by
    rintro ps later hps
    obtain ⟨init, last, rfl, hlast, hmore, hkeys⟩ := hps.continued
    rw [hpages]
    exact head_new.pages_of_paged hps.ordered (fun page hpage => hps.sameHeight page hpage last (by simp)) hlast hmore
      hkeys
  refine ⟨fun replies => ?_, fun answers proofs hok => ?_, fun ps ps' later later' hps hps' hrecords => ?_⟩
  · -- whatever the 257 answers are, the loop has ended
    refine ⟨257, le_rfl, pages height .new ((List.range 257).map replies), fun later => ?_⟩
    rw [hpages]
    refine head_new.pages_append ?_
    simp [maxProofsPerBlock]
  · obtain ⟨ps, later, rfl, hps, rfl⟩ := paged_of_proofsByHeight hok
    refine ⟨ps, later, rfl, hps, fun response hresponse => ?_, describes_pendingProofs hps.ordered.valid⟩
    obtain ⟨result, hresult⟩ := hps.ordered.valid response hresponse
    exact validateQueryProof_key hresult
  · refine ⟨_, hpaged ps later hps, ?_⟩
    rw [hrecords]
    exact hpaged ps' later' hps'

/-! ### Two records on one page and on two -/

/-- A request with empty content, which is pending at height 7. -/
private def pendingAt [Sha256] (index : Nat) : QueryProofResponse :=
  let hash := Sha256.digest []
  { proofKey := some ⟨7, index⟩
    state := some (.pending ⟨1, hash.1, hash.1, hash.1,
      (VerificationId.fromComponentHashes .minaPickles hash hash hash).bytes.1⟩) }

open Except in
private theorem validateQueryProof_pendingAt [Sha256] {index : Nat} (h : index < 256) :
    ∃ proof, validateQueryProof (pendingAt index) 7 = .ok (some proof) ∧ proof.indexInBlock = index := by
  let hash := Sha256.digest []
  refine ⟨⟨.fromComponentHashes .minaPickles hash hash hash, 7, index⟩, ?_, rfl⟩
  simp only [validateQueryProof, pendingAt]
  refine bind_eq_ok_iff.2 ⟨(), validatePosition_eq_ok_iff.2 ⟨rfl, by decide, h⟩, ?_⟩
  exact bind_eq_ok_iff.2 ⟨_, validateDescriptor_eq_ok_iff.2
    ⟨.minaPickles, hash, hash, hash, rfl, rfl, rfl, rfl, rfl, rfl⟩,
    rfl⟩

private def together [Sha256] : List Page := [⟨20, "", [pendingAt 0, pendingAt 3], []⟩]

private def apart [Sha256] : List Page := [⟨20, "", [pendingAt 0], [1]⟩, ⟨20, "", [pendingAt 3], []⟩]

private theorem ordered_together [Sha256] : Ordered 7 (records together) := by
  refine ⟨fun response hresponse => ?_, by simp [records, together, QueryProofResponse.index, pendingAt]⟩
  obtain rfl | rfl : response = pendingAt 0 ∨ response = pendingAt 3 := by simpa [records, together] using hresponse
  · obtain ⟨proof, hproof, -⟩ := validateQueryProof_pendingAt (by decide : 0 < 256)
    exact ⟨_, hproof⟩
  · obtain ⟨proof, hproof, -⟩ := validateQueryProof_pendingAt (by decide : 3 < 256)
    exact ⟨_, hproof⟩

/-- Both splits give the two requests. -/
theorem proofsByHeight_exact_split :
    letI := Sha256.standard
    ∃ proofs, proofsByHeight 7 (together.map Page.answer ++ []) = .ok proofs ∧
      proofsByHeight 7 (apart.map Page.answer ++ []) = .ok proofs ∧ proofs.length = 2 := by
  let _ := Sha256.standard
  have htogether : Paged 7 together :=
    ⟨ordered_together, by simp [together], [], _, rfl, rfl, (fun _ h => nomatch h), .nil⟩
  have hapart : Paged 7 apart :=
    ⟨ordered_together, by simp [apart], [⟨20, "", [pendingAt 0], [1]⟩], _, rfl, rfl, by simp, by simp⟩
  obtain ⟨-, -, hsplit⟩ := proofsByHeight_exact 7 (by decide)
  obtain ⟨proofs, hone, htwo⟩ := hsplit together apart [] [] htogether hapart rfl
  have hcount : (proofsByHeight 7 (together.map Page.answer ++ [])).toOption.map List.length = some 2 := by
    decide +kernel
  rw [hone] at hcount
  exact ⟨proofs, hone, htwo, Option.some.inj hcount⟩

end PulsarVerifier
