import Nullspace.Client.Pager

/-!
# Paging back

Repeated calls of `load_older` end at the first page without a decoded row. `loadOlders_exact`
says when nothing displayable is left below it then.
-/

namespace Nullspace

open Nullspace.Base

variable {P : Primitives}

/-- Fewer numbers of a list are below one of its numbers than below a greater one. -/
theorem countP_below_lt {ids : List Nat} {low high : Nat} (listed : low ∈ ids) (below : low < high) :
    ids.countP (fun id => decide (id < low)) < ids.countP fun id => decide (id < high) := by
  have within : ids.countP (fun id => decide (id < low)) =
      (ids.filter fun id => decide (id < high)).countP fun id => decide (id < low) := by
    rw [List.countP_filter]
    apply List.countP_congr
    intro id _
    simp only [Bool.and_eq_true, decide_eq_true_eq]
    constructor
    · exact fun under => ⟨under, under.trans below⟩
    · exact fun under => under.1
  rw [within, @List.countP_eq_length_filter _ (fun id => decide (id < high)) ids,
    List.countP_lt_length_iff]
  exact ⟨low, List.mem_filter.mpr ⟨listed, decide_eq_true below⟩, decide_eq_false (lt_irrefl low)⟩

namespace ClientDb

section

variable (json : JsonReader P) (env : ReadEnv P) (convo : ConvoId P) (db : ClientDb P)

/-- How many rows of a conversation are between two identifiers. -/
def rowsBetween (low high : Nat) : Nat :=
  db.joinedMessages.countP fun entry =>
    decide (entry.2 = convo) && decide (low < entry.1.id ∧ entry.1.id < high)

/-- If a displayable row is below an identifier, one of the ten rows next below is decoded. -/
def Near (upper : Nat) : Prop :=
  (∃ id ∈ db.displayableIds json convo, id < upper) →
    ∃ id ∈ db.shownIds json env convo, id < upper ∧
      db.rowsBetween convo id upper < pageLimit.toNat

/-- No ten rows in succession hide a displayable row below them. -/
def Bridged (oldestId : Nat) : Prop :=
  ∀ upper ≤ oldestId, db.Near json env convo upper

end

variable {json : JsonReader P} {env : ReadEnv P} {convo : ConvoId P} {db : ClientDb P}

/-- There are no fewer rows below a higher bound. -/
theorem rowsBetween_mono (low : Nat) {upper higher : Nat} (le : upper ≤ higher) :
    db.rowsBetween convo low upper ≤ db.rowsBetween convo low higher := by
  apply List.countP_mono_left
  intro entry _ counted
  simp only [Bool.and_eq_true, decide_eq_true_eq] at counted ⊢
  exact ⟨counted.1, counted.2.1, by omega⟩

theorem OnlyRoots.rowsBetween {next : ClientDb P} (only : OnlyRoots db next) (low high : Nat) :
    next.rowsBetween convo low high = db.rowsBetween convo low high := by
  rw [ClientDb.rowsBetween, only.joined, ClientDb.rowsBetween]

theorem OnlyRoots.near_iff {next : ClientDb P} (only : OnlyRoots db next) {upper : Nat} :
    next.Near json env convo upper ↔ db.Near json env convo upper := by
  simp only [Near, only.displayableIds, only.shownIds, only.rowsBetween]

theorem OnlyRoots.bridged_iff {next : ClientDb P} (only : OnlyRoots db next) {oldestId : Nat} :
    next.Bridged json env convo oldestId ↔ db.Bridged json env convo oldestId := by
  simp only [Bridged, only.near_iff]

/-- The page below an identifier: the rows with fewer than ten ones in between. -/
theorem Filed.mem_olderPage (filed : db.Filed)
    (ids : (db.convoMessages.map ConvoMessage.id).Nodup) {oldestId : Nat} {row : ConvoMessage} :
    row ∈ db.historyRows convo (some ((oldestId : Int) - 1)) none pageLimit ↔
      (row, convo) ∈ db.joinedMessages ∧ row.id < oldestId ∧
        db.rowsBetween convo row.id oldestId < pageLimit.toNat := by
  have between : (db.joinedMessages.countP fun entry => decide (entry.2 = convo) &&
      decide ((entry.1.id : Int) ≤ (some ((oldestId : Int) - 1)).getD (2 ^ 63 - 1) ∧
        row.id < entry.1.id)) = db.rowsBetween convo row.id oldestId := by
    apply List.countP_congr
    intro entry _
    simp only [Bool.and_eq_true, decide_eq_true_eq, Option.getD_some]
    constructor
    · rintro ⟨owns, below, above⟩
      exact ⟨owns, above, by omega⟩
    · rintro ⟨owns, above, below⟩
      exact ⟨owns, by omega, above⟩
  rw [filed.mem_historyRows ids, between, Option.getD_some, Option.getD_none]
  constructor
  · rintro ⟨joined, below, _, few⟩
    exact ⟨joined, by omega, few⟩
  · rintro ⟨joined, below, few⟩
    exact ⟨joined, by omega, by omega, few⟩

/-- Where a page is fetched again does not matter as long as a decoded row is near. -/
theorem bridged_iff_of_shown {id oldestId : Nat} (shown : id ∈ db.shownIds json env convo)
    (below : id < oldestId) (near : db.rowsBetween convo id oldestId < pageLimit.toNat) :
    db.Bridged json env convo id ↔ db.Bridged json env convo oldestId := by
  constructor
  · intro bridged upper low displayable
    rcases Nat.lt_or_ge id upper with above | reached
    · exact ⟨id, shown, above, lt_of_le_of_lt (rowsBetween_mono id low) near⟩
    · exact bridged upper reached displayable
  · intro bridged upper low displayable
    exact bridged upper (low.trans below.le) displayable

end ClientDb

namespace ConvoState

section

variable (json : JsonReader P) (convo : ConvoId P)

/-- No displayable message is below `oldest_id`. -/
def ReachesBeginning (db : ClientDb P) (state : ConvoState P) : Prop :=
  ∀ oldestId, state.oldestId = some oldestId → ∀ id ∈ db.displayableIds json convo, oldestId ≤ id

end

variable {json : JsonReader P} {convo : ConvoId P} {env : ReadEnv P} {db next : ClientDb P}
  {state final : ConvoState P}

/-- Applied messages leave the flag. -/
theorem noMoreOlder_applyMessages (messages : List (MessageView P)) :
    (state.applyMessages messages).noMoreOlder = state.noMoreOlder := by
  induction messages generalizing state with
  | nil => rfl
  | cons first rest ih => exact ih

/-- What one call does which finds an `oldest_id`. -/
inductive Paged (json : JsonReader P) (convo : ConvoId P) (env : ReadEnv P) (db : ClientDb P)
    (state : ConvoState P) (oldestId : Nat) : ConvoState P → Prop
  | failed (fails : env.queryFails = true) : Paged json convo env db state oldestId state
  | ended (queries : env.queryFails = false)
      (nothing : ∀ id ∈ db.shownIds json env convo, id < oldestId →
        pageLimit.toNat ≤ db.rowsBetween convo id oldestId) :
      Paged json convo env db state oldestId { state with noMoreOlder := true }
  | moved {final : ConvoState P} {id : Nat} (more : final.noMoreOlder = state.noMoreOlder)
      (oldest : final.oldestId = some id) (shown : id ∈ db.shownIds json env convo)
      (below : id < oldestId) (near : db.rowsBetween convo id oldestId < pageLimit.toNat) :
      Paged json convo env db state oldestId final

/-- The page below `oldest_id` has the next rows which are shown. -/
theorem Opened.mem_olderFetched (opened : state.Opened json convo db) {oldestId : Nat}
    {messages : List (MessageView P)}
    (fetched : db.convoHistory json env convo (some ((oldestId : Int) - 1)) none pageLimit =
      (next, .ok messages)) {id : Nat} :
    id ∈ messages.map MessageView.id ↔ id ∈ db.shownIds json env convo ∧ id < oldestId ∧
      db.rowsBetween convo id oldestId < pageLimit.toNat := by
  rw [mem_fetched fetched, ClientDb.mem_shownIds]
  constructor
  · rintro ⟨row, paged, shown, rfl⟩
    obtain ⟨joined, below, near⟩ := (opened.filed.mem_olderPage opened.ids).mp paged
    exact ⟨⟨row, joined, shown, rfl⟩, below, near⟩
  · rintro ⟨⟨row, joined, shown, rfl⟩, below, near⟩
    exact ⟨row, (opened.filed.mem_olderPage opened.ids).mpr ⟨joined, below, near⟩, shown, rfl⟩

/-- One call applies the page below `oldest_id`, or sets the flag. -/
theorem Opened.paged (opened : state.Opened json convo db) (more : state.noMoreOlder = false)
    {oldestId : Nat} (oldest : state.oldestId = some oldestId)
    (ends : state.loadOlder json convo env db = some (next, final)) :
    Paged json convo env db state oldestId final := by
  cases olderLoad_of_loadOlder ends with
  | finished flagged =>
      rw [more] at flagged
      cases flagged
  | nowhere _ unset =>
      rw [oldest] at unset
      cases unset
  | failed _ fails => exact .failed fails
  | @ended start _ _ found fetched =>
      cases oldest.symm.trans found
      refine .ended (fetched_ids fetched).1 ?_
      intro id shown below
      by_contra near
      have listed := (opened.mem_olderFetched fetched).mpr ⟨shown, below, not_le.mp near⟩
      cases listed
  | @moved start _ first rest _ found fetched =>
      cases oldest.symm.trans found
      have firstListed : first.id ∈ (first :: rest).map MessageView.id := List.mem_cons_self
      have marked := (opened.applyPage fetched).holds.marked
      obtain ⟨id, same, least⟩ := (Option.any_eq_true _ _).mp
        (marked.oldest first.id (mem_applyMessages.mpr (Or.inr firstListed)))
      have firstBelow := ((opened.mem_olderFetched fetched).mp firstListed).2.1
      -- The new `oldest_id` is from the page, since the view had nothing below the last one.
      have listed : id ∈ (first :: rest).map MessageView.id := by
        rcases mem_applyMessages.mp (marked.held id same) with earlier | new
        · have covered := opened.holds.marked.oldest id earlier
          rw [covers, oldest, Option.any_some, decide_eq_true_eq] at covered
          rw [decide_eq_true_eq] at least
          omega
        · exact new
      obtain ⟨shown, below, near⟩ := (opened.mem_olderFetched fetched).mp listed
      exact .moved (noMoreOlder_applyMessages _) same shown below near

end ConvoState

namespace Pager

section

variable (json : JsonReader P) (convo : ConvoId P)

/-- A page which is fetched below `oldest_id` has a decoded row if a displayable one is below. -/
def Reaching (pager : Pager P) : PagerStep P → Prop
  | .loadOlder env => pager.view.noMoreOlder = false → env.queryFails = false →
      ∀ oldestId, pager.view.oldestId = some oldestId → pager.db.Near json env convo oldestId
  | _ => True

/-- How many displayable rows are below `oldest_id`. -/
def unpaged (pager : Pager P) : Nat :=
  pager.view.oldestId.elim 0 fun oldestId =>
    (pager.db.displayableIds json convo).countP fun id => decide (id < oldestId)

end

variable {json : JsonReader P} {convo : ConvoId P} {env : ReadEnv P} {pager next final : Pager P}

/-- A step of paging back is a call of `load_older`. -/
theorem step_loadOlder : (machine json convo).step pager (.loadOlder env) = some next ↔
    pager.view.loadOlder json convo env pager.db = some (next.db, next.view) ∧
      next.refreshed = false := by
  simp only [machine, Option.map_eq_some_iff]
  constructor
  · rintro ⟨⟨db, view⟩, ends, rfl⟩
    exact ⟨ends, rfl⟩
  · rintro ⟨ends, refreshed⟩
    exact ⟨(next.db, next.view), ends, refreshed ▸ rfl⟩

/-- After the flag is set the calls change nothing. -/
theorem loadOlder_of_flagged (flagged : pager.view.noMoreOlder = true)
    (taken : (machine json convo).step pager (.loadOlder env) = some next) :
    next.db = pager.db ∧ next.view = pager.view := by
  have ends := (step_loadOlder.mp taken).1
  rw [ConvoState.loadOlder, if_pos flagged] at ends
  simp only [Option.some.injEq, Prod.mk.injEq] at ends
  exact ⟨ends.1.symm, ends.2.symm⟩

/-- Behind the flag calls do nothing. -/
theorem loadOlders_of_flagged (flagged : pager.view.noMoreOlder = true)
    {calls : List (ReadEnv P)}
    (ends : (machine json convo).exec pager (calls.map .loadOlder) = some final) :
    final.db = pager.db ∧ final.view = pager.view := by
  induction calls generalizing pager with
  | nil =>
      cases ends
      exact ⟨rfl, rfl⟩
  | cons call later ih =>
      rw [List.map_cons, Machine.exec_cons] at ends
      obtain ⟨middle, taken, rest⟩ := Option.bind_eq_some_iff.mp ends
      obtain ⟨sameDb, sameView⟩ := loadOlder_of_flagged flagged taken
      rw [← sameDb, ← sameView]
      exact ih (sameView ▸ flagged) rest

/-- Behind the flag no page is fetched. -/
theorem along_of_flagged (flagged : pager.view.noMoreOlder = true) (calls : List (ReadEnv P)) :
    (machine json convo).Along (Reaching json convo) pager (calls.map .loadOlder) := by
  induction calls generalizing pager with
  | nil => exact Machine.along_nil _ _
  | cons call later ih =>
      rw [List.map_cons, Machine.along_cons]
      intro next taken
      obtain ⟨_, sameView⟩ := loadOlder_of_flagged flagged taken
      refine ⟨fun more => ?_, ih (sameView ▸ flagged)⟩
      rw [flagged] at more
      cases more

/-- Without an `oldest_id` the first call sets the flag. -/
theorem loadOlder_of_none (more : pager.view.noMoreOlder = false)
    (nowhere : pager.view.oldestId = none)
    (taken : (machine json convo).step pager (.loadOlder env) = some next) :
    next.view.noMoreOlder = true ∧ next.view.oldestId = none := by
  have ends := (step_loadOlder.mp taken).1
  rw [ConvoState.loadOlder, more, if_neg Bool.false_ne_true, nowhere] at ends
  simp only [Option.some.injEq, Prod.mk.injEq] at ends
  rw [← ends.2]
  exact ⟨rfl, rfl⟩

/-- A call of the run, when there is an `oldest_id`. -/
theorem paged_of_step (opened : pager.view.Opened json convo pager.db)
    (more : pager.view.noMoreOlder = false) {oldestId : Nat}
    (oldest : pager.view.oldestId = some oldestId)
    (taken : (machine json convo).step pager (.loadOlder env) = some next) :
    ConvoState.Paged json convo env pager.db pager.view oldestId next.view ∧
      ClientDb.OnlyRoots pager.db next.db := by
  have ends := (step_loadOlder.mp taken).1
  exact ⟨opened.paged more oldest ends, (ConvoState.olderLoad_of_loadOlder ends).onlyRoots⟩

/-- With a page which ends paging back nothing is left below it exactly when the page has a
decoded row wherever there is something displayable. -/
theorem reaches_iff_near {oldestId : Nat} {db : ClientDb P}
    (nothing : ∀ id ∈ db.shownIds json env convo, id < oldestId →
      pageLimit.toNat ≤ db.rowsBetween convo id oldestId) :
    (∀ id ∈ db.displayableIds json convo, oldestId ≤ id) ↔ db.Near json env convo oldestId := by
  constructor
  · rintro reaches ⟨id, displayable, below⟩
    have above := reaches id displayable
    omega
  · intro near id displayable
    by_contra below
    obtain ⟨shownId, shown, under, few⟩ := near ⟨id, displayable, not_le.mp below⟩
    have far := nothing shownId shown under
    omega

/-- Paging back reaches the beginning exactly when each page which it fetches has a decoded row
as long as something displayable is left. -/
theorem loadOlders_reaches_iff_along (opened : pager.view.Opened json convo pager.db)
    (more : pager.view.noMoreOlder = false) {calls : List (ReadEnv P)}
    (ends : (machine json convo).exec pager (calls.map .loadOlder) = some final)
    (flagged : final.view.noMoreOlder = true) :
    final.view.ReachesBeginning json convo final.db ↔
      (machine json convo).Along (Reaching json convo) pager (calls.map .loadOlder) := by
  induction calls generalizing pager with
  | nil =>
      cases ends
      rw [more] at flagged
      cases flagged
  | cons call later ih =>
      rw [List.map_cons, Machine.exec_cons] at ends
      obtain ⟨middle, taken, rest⟩ := Option.bind_eq_some_iff.mp ends
      rw [List.map_cons, Machine.along_cons_of_step taken]
      have openedLater := opened_step opened taken
      cases oldest : pager.view.oldestId with
      | none =>
          obtain ⟨flaggedNow, nowhere⟩ := loadOlder_of_none more oldest taken
          obtain ⟨_, sameView⟩ := loadOlders_of_flagged flaggedNow rest
          refine iff_of_true ?_ ⟨?_, along_of_flagged flaggedNow later⟩
          · intro oldestId found
            rw [sameView, nowhere] at found
            cases found
          · intro _ _ oldestId found
            rw [oldest] at found
            cases found
      | some oldestId =>
          obtain ⟨paged, only⟩ := paged_of_step opened more oldest taken
          generalize middleView : middle.view = view at paged
          cases paged with
          | failed fails =>
              rw [ih openedLater (middleView ▸ more) rest]
              refine (and_iff_right ?_).symm
              intro _ queries
              rw [fails] at queries
              cases queries
          | ended queries nothing =>
              have flaggedNow : middle.view.noMoreOlder = true := by rw [middleView]
              obtain ⟨sameDb, sameView⟩ := loadOlders_of_flagged flaggedNow rest
              rw [and_iff_left (along_of_flagged flaggedNow later), sameDb, sameView, middleView,
                ConvoState.ReachesBeginning, only.displayableIds]
              constructor
              · intro reaches _ _ found same
                cases oldest.symm.trans same
                exact (reaches_iff_near nothing).mp (reaches oldestId oldest)
              · intro near found same
                cases oldest.symm.trans same
                exact (reaches_iff_near nothing).mpr (near more queries oldestId oldest)
          | @moved _ id stays oldestLater shown below near =>
              rw [ih openedLater (middleView ▸ stays.trans more) rest]
              refine (and_iff_right ?_).symm
              intro _ _ found same _
              cases oldest.symm.trans same
              exact ⟨id, shown, below, near⟩

/-- When the same roots can be stored in all calls, that is a matter of the rows alone. -/
theorem loadOlders_reaches_iff_bridged (env : ReadEnv P)
    (opened : pager.view.Opened json convo pager.db) (more : pager.view.noMoreOlder = false) {oldestId : Nat}
    (oldest : pager.view.oldestId = some oldestId) {calls : List (ReadEnv P)}
    (stores : ∀ call ∈ calls, call.storeFails = env.storeFails)
    (ends : (machine json convo).exec pager (calls.map .loadOlder) = some final)
    (flagged : final.view.noMoreOlder = true) :
    final.view.ReachesBeginning json convo final.db ↔
      pager.db.Bridged json env convo oldestId := by
  induction calls generalizing pager oldestId with
  | nil =>
      cases ends
      rw [more] at flagged
      cases flagged
  | cons call later ih =>
      rw [List.map_cons, Machine.exec_cons] at ends
      obtain ⟨middle, taken, rest⟩ := Option.bind_eq_some_iff.mp ends
      obtain ⟨storesFirst, storesLater⟩ := List.forall_mem_cons.mp stores
      obtain ⟨paged, only⟩ := paged_of_step opened more oldest taken
      have openedLater := opened_step opened taken
      rw [← only.bridged_iff]
      generalize middleView : middle.view = view at paged
      cases paged with
      | failed =>
          exact ih openedLater (middleView ▸ more) (middleView ▸ oldest) storesLater rest
      | ended _ nothing =>
          obtain ⟨sameDb, sameView⟩ := loadOlders_of_flagged (by rw [middleView]) rest
          rw [ClientDb.shownIds_of_stores storesFirst] at nothing
          have nearest := reaches_iff_near nothing
          rw [sameDb, sameView, middleView, ConvoState.ReachesBeginning, only.displayableIds,
            only.bridged_iff]
          constructor
          · rintro reaches upper low ⟨id, displayable, below⟩
            have above := reaches oldestId oldest id displayable
            omega
          · intro bridged found same
            cases oldest.symm.trans same
            exact nearest.mpr (bridged oldestId le_rfl)
      | @moved _ id stays oldestLater shown below near =>
          rw [ClientDb.shownIds_of_stores storesFirst, ← only.shownIds] at shown
          rw [← only.rowsBetween] at near
          rw [ih openedLater (middleView ▸ stays.trans more) (middleView ▸ oldestLater)
            storesLater rest]
          exact ClientDb.bridged_iff_of_shown shown below near

/-- No more rows are unpaged than there are. -/
theorem unpaged_le (pager : Pager P) :
    pager.unpaged json convo ≤ pager.db.convoMessages.length := by
  rw [unpaged]
  cases pager.view.oldestId with
  | none => exact Nat.zero_le _
  | some oldestId =>
      apply List.countP_le_length.trans
      rw [ClientDb.displayableIds, List.length_map]
      exact (List.length_filter_le _ _).trans (List.length_filterMap_le _ _)

/-- More calls which do not fail than displayable rows below `oldest_id` set the flag. -/
theorem loadOlders_ends (opened : pager.view.Opened json convo pager.db) {calls : List (ReadEnv P)}
    (queries : ∀ call ∈ calls, call.queryFails = false)
    (many : pager.unpaged json convo < calls.length)
    (ends : (machine json convo).exec pager (calls.map .loadOlder) = some final) :
    final.view.noMoreOlder = true := by
  induction calls generalizing pager with
  | nil => exact absurd many (Nat.not_lt_zero _)
  | cons call later ih =>
      rw [List.map_cons, Machine.exec_cons] at ends
      obtain ⟨middle, taken, rest⟩ := Option.bind_eq_some_iff.mp ends
      obtain ⟨queriesFirst, queriesLater⟩ := List.forall_mem_cons.mp queries
      have stays : middle.view.noMoreOlder = true → final.view.noMoreOlder = true := by
        intro flagged
        rw [(loadOlders_of_flagged flagged rest).2]
        exact flagged
      cases more : pager.view.noMoreOlder with
      | true =>
          apply stays
          rw [(loadOlder_of_flagged more taken).2]
          exact more
      | false =>
          cases oldest : pager.view.oldestId with
          | none => exact stays (loadOlder_of_none more oldest taken).1
          | some oldestId =>
              obtain ⟨paged, only⟩ := paged_of_step opened more oldest taken
              generalize middleView : middle.view = view at paged
              cases paged with
              | failed fails =>
                  rw [queriesFirst] at fails
                  cases fails
              | ended => exact stays (by rw [middleView])
              | @moved _ id _ oldestLater shown below _ =>
                  refine ih (opened_step opened taken) queriesLater ?_ rest
                  have fewer := countP_below_lt (ClientDb.displayable_of_shown shown) below
                  rw [unpaged, oldest, Option.elim_some, List.length_cons] at many
                  rw [unpaged, middleView, oldestLater, Option.elim_some, only.displayableIds]
                  omega

/-- A call returns while sizes can be added up. -/
theorem loadOlder_returns (convo : ConvoId P) (summable : pager.db.Summable json)
    (env : ReadEnv P) :
    ∃ next, (machine json convo).step pager (.loadOlder env) = some next ∧
      next.db.Summable json := by
  have returned : ∃ db view, pager.view.loadOlder json convo env pager.db = some (db, view) ∧
      db.Summable json := by
    rw [ConvoState.loadOlder]
    split
    · exact ⟨_, _, rfl, summable⟩
    · split
      · exact ⟨_, _, rfl, summable⟩
      · rename_i oldestId _
        have survives := ClientDb.survives_convoHistory env summable convo
          (some ((oldestId : Int) - 1)) none pageLimit
        split
        · rename_i aborted
          rw [aborted] at survives
          exact absurd rfl survives.ends
        · rename_i failed
          rw [failed] at survives
          exact ⟨_, _, rfl, survives.summable⟩
        · rename_i fetched
          rw [fetched] at survives
          exact ⟨_, _, rfl, survives.summable⟩
  obtain ⟨db, view, ends, later⟩ := returned
  exact ⟨⟨db, view, false⟩, step_loadOlder.mpr ⟨ends, rfl⟩, later⟩

/-- Calls abort only when the sizes of an attachment overflow. -/
theorem loadOlders_return (convo : ConvoId P) (summable : pager.db.Summable json)
    (calls : List (ReadEnv P)) :
    ∃ final, (machine json convo).exec pager (calls.map .loadOlder) = some final := by
  induction calls generalizing pager with
  | nil => exact ⟨pager, rfl⟩
  | cons call later ih =>
      obtain ⟨next, taken, summableNext⟩ := loadOlder_returns convo summable call
      rw [List.map_cons, Machine.exec_cons, taken]
      exact ih summableNext

/-- Only `load_older` sets the flag. -/
theorem noMoreOlder_step {event : PagerStep P} (forward : ∀ env, event ≠ .loadOlder env)
    (taken : (machine json convo).step pager event = some next) :
    next.view.noMoreOlder = pager.view.noMoreOlder := by
  cases event with
  | insert other now event sendError receivedAt =>
      simp only [machine] at taken
      split at taken
      · cases taken
        rfl
      · cases taken
  | receive id receivedAt sendError =>
      cases taken
      rfl
  | loadInitial env =>
      obtain ⟨⟨db, view⟩, ends, rfl⟩ := Option.map_eq_some_iff.mp taken
      rw [ConvoState.loadInitial] at ends
      split at ends
      · cases ends
      · cases ends
        rfl
      · cases ends
        exact ConvoState.noMoreOlder_applyMessages _
  | refreshNewer envs =>
      obtain ⟨⟨db, view, ok⟩, ends, rfl⟩ := Option.map_eq_some_iff.mp taken
      exact ConvoState.refreshLoop_keeps
        (fun _ later => later.noMoreOlder = pager.view.noMoreOlder)
        (fun same _ => (ConvoState.noMoreOlder_applyMessages _).trans same) (fun same _ => same)
        rfl ends
  | loadOlder env => exact absurd rfl (forward env)

/-- Paging back from any view which has not come to its end. It reaches the beginning exactly
when no page hides something displayable, and enough calls which do not fail end it. -/
theorem loadOlders_exact (json : JsonReader P) (convo : ConvoId P) {db : ClientDb P}
    (filed : db.Filed) (ids : (db.convoMessages.map ConvoMessage.id).Nodup)
    (bounded : ∀ row ∈ db.convoMessages, row.id < 2 ^ 63) {events : List (PagerStep P)}
    (reached : (machine json convo).exec (start db) events = some pager)
    (more : pager.view.noMoreOlder = false) {calls : List (ReadEnv P)}
    (ends : (machine json convo).exec pager (calls.map .loadOlder) = some final) :
    (final.view.noMoreOlder = true →
      (final.view.ReachesBeginning json convo final.db ↔
        (machine json convo).Along (Reaching json convo) pager (calls.map .loadOlder)) ∧
      ∀ env oldestId, (∀ call ∈ calls, call.storeFails = env.storeFails) →
        pager.view.oldestId = some oldestId →
          (final.view.ReachesBeginning json convo final.db ↔
            pager.db.Bridged json env convo oldestId)) ∧
    ((∀ call ∈ calls, call.queryFails = false) →
      pager.db.convoMessages.length < calls.length → final.view.noMoreOlder = true) := by
  have opened := opened_exec (opened_start json convo filed ids bounded) reached
  refine ⟨fun flagged => ⟨loadOlders_reaches_iff_along opened more ends flagged, ?_⟩, ?_⟩
  · intro env oldestId stores oldest
    exact loadOlders_reaches_iff_bridged env opened more oldest stores ends flagged
  · intro queries many
    exact loadOlders_ends opened queries (lt_of_le_of_lt (unpaged_le pager) many) ends

/-- In the open chat two calls reach the beginning. -/
theorem loadOlders_exact_openChat :
    ∃ final, (machine symbolicJson (.direct bobby)).exec openChat
        ([calmReads, calmReads].map .loadOlder) = some final ∧
      final.view.noMoreOlder = true ∧
        final.view.ReachesBeginning symbolicJson (.direct bobby) final.db := by
  have reached : (machine symbolicJson (.direct bobby)).exec (start ClientDb.empty)
      [bobbySends 1, .loadInitial calmReads] = some openChat := by
    rw [Machine.exec_cons, step_bobbySends, Option.bind_some, Machine.exec_cons, step_openChat]
    rfl
  obtain ⟨final, ends⟩ := @loadOlders_return _ _ openChat (.direct bobby)
    (summable_symbolic rfl) [calmReads, calmReads]
  obtain ⟨reaches, flagged⟩ := loadOlders_exact symbolicJson (.direct bobby) ClientDb.filed_empty
    List.nodup_nil (by rintro row ⟨⟩) reached rfl ends
  have set := flagged (by decide) (by decide)
  refine ⟨final, ends, set, ((reaches set).2 calmReads 1 (by simp) rfl).mpr ?_⟩
  rintro upper low ⟨id, displayable, below⟩
  have only : openChat.db.displayableIds symbolicJson (.direct bobby) = [1] := by decide +kernel
  rw [only, List.mem_singleton] at displayable
  omega

/-- A message of Bobby which says that it is an attachment. -/
def bobbyAttaches (sentAt : NanoTimestamp) : PagerStep symbolic :=
  .insert (.direct bobby) 1 ⟨bobby, Attachment.mimeType, utf8 "hi", sentAt⟩ none (some sentAt)

/-- Between two messages of Bobby there are ten which cannot be decoded. -/
def spam : List (PagerStep symbolic) :=
  .loadInitial calmReads :: bobbySends 1 ::
    [2, 3, 4, 5, 6, 7, 8, 9, 10, 11].map bobbyAttaches ++ [bobbySends 12]

/-- A refresh brings the last of the twelve messages. The first is below ten newer ones. -/
theorem spam_refreshed :
    ∃ pager, (machine symbolicJson (.direct bobby)).exec (start ClientDb.empty)
        (spam ++ [.refreshNewer [calmReads, calmReads]]) = some pager ∧
      pager.view.Opened symbolicJson (.direct bobby) pager.db ∧
      pager.db.Summable symbolicJson ∧ pager.view.noMoreOlder = false ∧
      pager.view.oldestId = some 12 ∧
      pager.db.displayableIds symbolicJson (.direct bobby) = [1, 12] ∧
      pager.db.rowsBetween (.direct bobby) 1 12 = 10 := by
  have facts : ((machine symbolicJson (.direct bobby)).exec (start ClientDb.empty) spam).any
      (fun pager => decide (pager.db.displayableIds symbolicJson (.direct bobby) = [1, 12] ∧
        pageLimit.toNat ≤ pager.db.newerRows (.direct bobby) 1 ∧
        pager.db.newerRows (.direct bobby) 12 = 0 ∧
        pager.db.rowsBetween (.direct bobby) 1 12 = 10 ∧
        pager.db.attachmentRoots.entries.length = 0 ∧
        (∀ row ∈ pager.db.convoMessages, row.id + 1 < 2 ^ 63) ∧
        pager.view.latestReceivedId = none ∧ pager.view.noMoreOlder = false ∧
        1 ∉ pager.view.messages)) = true := by decide +kernel
  obtain ⟨pager, filled, seen⟩ := (Option.any_eq_true _ _).mp facts
  obtain ⟨displayable, manyAbove, noneAbove, between, noRoots, small, received, more, nothing⟩ :=
    of_decide_eq_true seen
  have opened := opened_exec (opened_start symbolicJson (.direct bobby) ClientDb.filed_empty
    List.nodup_nil (by rintro row ⟨⟩)) filled
  obtain ⟨db, view, refreshes, summable⟩ := opened.refreshNewer_ends (summable_symbolic noRoots) small
    calm_calmReads calm_calmReads
  have refreshed : (machine symbolicJson (.direct bobby)).step pager
      (.refreshNewer [calmReads, calmReads]) = some ⟨db, view, true⟩ := by
    simp only [machine, refreshes, Option.map_some]
  have reached : (machine symbolicJson (.direct bobby)).exec (start ClientDb.empty)
      (spam ++ [.refreshNewer [calmReads, calmReads]]) = some ⟨db, view, true⟩ :=
    Machine.exec_snoc.mpr ⟨pager, filled, refreshed⟩
  have only := ConvoState.refreshLoop_onlyRoots refreshes
  have openedView : view.Opened symbolicJson (.direct bobby) db := opened_step opened refreshed
  have still : view.noMoreOlder = false :=
    (noMoreOlder_step (fun _ same => by cases same) refreshed).trans more
  have shows : db.displayableIds symbolicJson (.direct bobby) = [1, 12] :=
    only.displayableIds.trans displayable
  -- The refresh brings the twelfth message, and not the first.
  have twelfth : 12 ∈ view.messages := by
    refine ConvoState.refreshLoop_established (fun _ later => 12 ∈ later.messages)
      (fun earlier _ => ConvoState.mem_applyMessages.mpr (Or.inl earlier)) (fun earlier _ => earlier)
      ?_ refreshes
    rintro env ⟨rfl⟩ middle messages fetched
    obtain ⟨row, joined, decodes, same⟩ := ClientDb.mem_displayableIds.mp
      (displayable ▸ by simp : 12 ∈ pager.db.displayableIds symbolicJson (.direct bobby))
    have listed : row.id ∈ messages.map MessageView.id := by
      refine opened.mem_fetched_of_newest fetched joined
        ((calm_calmReads.shows row).trans decodes) ?_ ?_
      · rw [ConvoState.refreshAfter, received]
        exact Int.natCast_nonneg _
      · rw [same, noneAbove]
        decide
    exact ConvoState.mem_applyMessages.mpr (Or.inr (same ▸ listed))
  have notFirst : 1 ∉ view.messages := by
    rw [← AList.lookup_eq_none, opened.refreshLoop_lookup (Or.inr manyAbove) refreshes,
      AList.lookup_eq_none]
    exact nothing
  have oldest : view.oldestId = some 12 := by
    obtain ⟨oldestId, same, _⟩ :=
      (Option.any_eq_true _ _).mp (openedView.holds.marked.oldest 12 twelfth)
    have held := openedView.holds.marked.held oldestId same
    have shown := openedView.holds.within oldestId held
    rw [shows, List.mem_cons, List.mem_singleton] at shown
    rcases shown with rfl | rfl
    · exact absurd held notFirst
    · exact same
  exact ⟨⟨db, view, true⟩, reached, openedView, summable, still, oldest, shows,
    (only.rowsBetween 1 12).trans between⟩

/-- The calls end at the ten messages and do not reach the one below them. -/
theorem spam_hides_beginning :
    ¬∀ (events : List (PagerStep symbolic)) (pager : Pager symbolic)
        (calls : List (ReadEnv symbolic)) (final : Pager symbolic),
      (machine symbolicJson (.direct bobby)).exec (start ClientDb.empty) events = some pager →
        pager.view.noMoreOlder = false →
          (machine symbolicJson (.direct bobby)).exec pager (calls.map .loadOlder) = some final →
            final.view.noMoreOlder = true →
              final.view.ReachesBeginning symbolicJson (.direct bobby) final.db := by
  intro always
  obtain ⟨pager, reached, opened, summable, more, oldest, shows, between⟩ := spam_refreshed
  obtain ⟨final, ends⟩ := loadOlders_return (.direct bobby) summable [calmReads, calmReads]
  have flagged : final.view.noMoreOlder = true := by
    refine loadOlders_ends opened (by simp [calmReads]) ?_ ends
    rw [unpaged, oldest, Option.elim_some, shows]
    decide
  have bridged := (loadOlders_reaches_iff_bridged calmReads opened more oldest (by simp) ends
    flagged).mp (always _ _ _ _ reached more ends flagged)
  obtain ⟨id, shown, below, near⟩ := bridged 12 le_rfl ⟨1, by rw [shows]; simp, by decide⟩
  have listed := ClientDb.displayable_of_shown shown
  rw [shows, List.mem_cons, List.mem_singleton] at listed
  rcases listed with rfl | rfl
  · rw [between] at near
    exact absurd near (by decide)
  · exact lt_irrefl _ below

end Pager
end Nullspace
