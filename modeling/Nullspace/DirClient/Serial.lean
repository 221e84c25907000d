import Nullspace.DirClient.Publishing

/-!
# Operations on a name are serial

An operation which returned `Ok` is a compare-and-swap: the committed history of its name is
the history which the operation was shown, its update behind it, and what came later. So the
operations on a name have an order, in which each was shown the results of those before it,
and every verified answer shows an operation together with all before it or not at all.

`Anchored` is what the primary keeps, `Tracked` what the tasks keep. That the clients read the
committed histories is seen from the end of the run, where all the headers are which the
anchors of the run name.
-/

namespace Nullspace

open Nullspace.Base

variable {P : Primitives} {S : Smt P}

namespace DirClient

variable {decompress : Bytes → Option S.Proof} {anchorPk : P.SigningPublic}
  {client next : DirClient P} {query : Nat}

/-- A fetch opens its own query at most, and accepts nothing. -/
theorem step_fetch {key : String} {response : Option (DirectoryResponse P)} {evicted : Bool}
    {anchors : List (Option (DirectoryAnchor P))}
    (taken : (machine decompress anchorPk).step client (.fetch query key response evicted anchors) =
      some next) :
    query ∉ client.queries ∧ next.accepted = client.accepted ∧
      (next.queries = client.queries ∨
        ∃ running, running.key = key ∧ next.queries = client.queries.insert query running) := by
  simp only [machine] at taken
  split at taken
  · cases taken
  · rename_i new
    refine ⟨new, ?_⟩
    split at taken
    · cases taken
      exact ⟨rfl, .inl rfl⟩
    · split at taken
      · cases taken
        exact ⟨rfl, .inl rfl⟩
      · cases taken
        exact ⟨rfl, .inr ⟨_, rfl, rfl⟩⟩

/-- A synchronization ends its own query or marks it as synced, and accepts nothing. -/
theorem step_sync {replies : List (Option (List (DirectoryHeader P)))}
    (taken : (machine decompress anchorPk).step client (.sync query replies) = some next) :
    ∃ running, client.queries.lookup query = some running ∧ next.accepted = client.accepted ∧
      (next.queries = client.queries.erase query ∨
        next.queries = client.queries.insert query { running with synced := true }) := by
  simp only [machine] at taken
  split at taken
  · cases taken
  · rename_i running found
    refine ⟨running, found, ?_⟩
    split at taken
    · cases taken
    · split at taken
      · cases taken
        exact ⟨rfl, .inl rfl⟩
      · cases taken
        exact ⟨rfl, .inr rfl⟩

/-- A verification ends its query, and accepts its answer or nothing. -/
theorem step_verify
    (taken : (machine decompress anchorPk).step client (.verify query) = some next) :
    ∃ running, client.queries.lookup query = some running ∧
      next.queries = client.queries.erase query ∧ (next.accepted = client.accepted ∨
        next.accepted = client.accepted ++ [(running.key, running.response)]) := by
  simp only [machine] at taken
  split at taken
  · cases taken
  · rename_i running found
    refine ⟨running, found, ?_⟩
    split at taken
    · cases taken
    · split at taken
      · cases taken
        exact ⟨rfl, .inl rfl⟩
      · cases taken
        exact ⟨rfl, .inr rfl⟩

/-- A verified response is the one which the query had. -/
theorem answered_verify {response : DirectoryResponse P}
    (taken : (machine decompress anchorPk).step client (.verify query) = some next)
    (answered : client.answered next = some response) :
    ∃ running, client.queries.lookup query = some running ∧
      next.accepted = client.accepted ++ [(running.key, response)] := by
  obtain ⟨running, found, _, same | more⟩ := step_verify taken
  · rw [DirClient.answered, same, List.getElem?_eq_none (Nat.le_refl _)] at answered
    cases answered
  · rw [DirClient.answered, more, List.getElem?_append_right (Nat.le_refl _),
      Nat.sub_self] at answered
    cases answered
    exact ⟨running, found, more⟩

end DirClient

namespace PublishWorld

/-- Every running query is of a task of this client, for the name which the task fetches. -/
def Asked (clients : Nat → DirClient P) (tasks : Table Nat (Nat × TaskStage P)) : Prop :=
  ∀ client task running, (clients client).queries.lookup task = some running →
    ∃ stage, tasks.lookup task = some (client, stage) ∧ stage.key? = some running.key

/-- A verified response shows the update of the operation. -/
def Shows (world : PublishWorld S) (publication : Publication P) : Prop :=
  ∃ client response, (publication.key, response) ∈ (world.clients client).accepted ∧
    ∃ update ∈ response.history, update.hash = publication.update.hash

/-- What every run keeps of its tasks. -/
structure Tracked (world : PublishWorld S) : Prop where
  asked : Asked world.clients world.tasks
  linked : ∀ task client stage publication, world.tasks.lookup task = some (client, stage) →
    stage.publication? = some publication → publication.Linked
  returned : ∀ publication ∈ world.returned, publication.Linked ∧ world.Shows publication

/-- No client has a query of the task. -/
def Idle (world : PublishWorld S) (task : Nat) : Prop :=
  ∀ client, (world.clients client).queries.lookup task = none

theorem tracked_fresh (store : S.Store) : (fresh store).Tracked where
  asked client task running found := by simp [fresh, DirClient.fresh] at found
  linked task client stage publication found := by simp [fresh] at found
  returned _ listed := absurd listed List.not_mem_nil

variable {world : PublishWorld S} {task client : Nat} {stage : TaskStage P}

/-- A task which has not begun has no query. -/
theorem Tracked.idle_of_new (tracked : world.Tracked) (new : task ∉ world.tasks) :
    world.Idle task := by
  intro client
  cases asking : (world.clients client).queries.lookup task with
  | none => rfl
  | some running =>
      obtain ⟨stage, found, _⟩ := tracked.asked client task running asking
      exact absurd (AList.lookup_isSome.mp (by rw [found]; rfl)) new

/-- A task whose client has no query for it has none at all. -/
theorem Tracked.idle (tracked : world.Tracked)
    (found : world.tasks.lookup task = some (client, stage))
    (unasked : (world.clients client).queries.lookup task = none) : world.Idle task := by
  intro other
  cases asking : (world.clients other).queries.lookup task with
  | none => rfl
  | some running =>
      obtain ⟨kept, stands, _⟩ := tracked.asked other task running asking
      cases found.symm.trans stands
      cases unasked.symm.trans asking

/-- A task which waits for the primary has no query. -/
theorem Tracked.idle_of_inserting (tracked : world.Tracked)
    (found : world.tasks.lookup task = some (client, stage)) (silent : stage.key? = none) :
    world.Idle task := by
  refine tracked.idle found (Option.eq_none_iff_forall_ne_some.mpr ?_)
  intro running asking
  obtain ⟨kept, stands, named⟩ := tracked.asked client task running asking
  cases found.symm.trans stands
  cases silent.symm.trans named

/-- Only a client changes, and in its queries only the one of a task of its own. -/
theorem Tracked.setClient (tracked : world.Tracked)
    (found : world.tasks.lookup task = some (client, stage)) {next : DirClient P}
    (others : ∀ other ≠ task, next.queries.lookup other = (world.clients client).queries.lookup other)
    (own : ∀ running, next.queries.lookup task = some running → stage.key? = some running.key)
    (accepted : (world.clients client).accepted ⊆ next.accepted) :
    (world.setClient client next).Tracked where
  asked := by
    intro other number running listed
    simp only [PublishWorld.setClient, Function.update_apply] at listed
    split at listed
    · rename_i owner
      subst owner
      by_cases here : number = task
      · subst here
        exact ⟨stage, found, own running listed⟩
      · rw [others number here] at listed
        exact tracked.asked other number running listed
    · exact tracked.asked other number running listed
  linked := tracked.linked
  returned := by
    intro publication listed
    obtain ⟨linked, owner, response, shown, held⟩ := tracked.returned publication listed
    refine ⟨linked, owner, response, ?_, held⟩
    simp only [PublishWorld.setClient, Function.update_apply]
    split
    · rename_i same
      exact accepted (same ▸ shown)
    · exact shown

/-- The end of a task keeps the record. -/
theorem Tracked.finish (tracked : world.Tracked) (idle : world.Idle task) :
    (world.finish task).Tracked where
  asked := by
    intro other number running listed
    obtain ⟨kept, stands, named⟩ := tracked.asked other number running listed
    refine ⟨kept, ?_, named⟩
    have apart : number ≠ task := by
      rintro rfl
      cases (idle other).symm.trans listed
    exact (AList.lookup_erase_ne apart).trans stands
  linked number other kept publication stands :=
    tracked.linked number other kept publication (Table.lookup_of_lookup_erase stands)
  returned := tracked.returned

/-- The next stage of a task without a query keeps the record. -/
theorem Tracked.setStage (tracked : world.Tracked) (idle : world.Idle task) {later : TaskStage P}
    (linked : ∀ publication, later.publication? = some publication → publication.Linked) :
    (world.setStage task client later).Tracked where
  asked := by
    intro other number running listed
    obtain ⟨kept, stands, named⟩ := tracked.asked other number running listed
    refine ⟨kept, ?_, named⟩
    have apart : number ≠ task := by
      rintro rfl
      cases (idle other).symm.trans listed
    exact (AList.lookup_insert_ne apart).trans stands
  linked := by
    intro number other kept publication stands signed
    rcases Table.lookup_insert_cases stands with ⟨_, same⟩ | before
    · cases same
      exact linked publication signed
    · exact tracked.linked number other kept publication before signed
  returned := tracked.returned

/-- The step of a query which is not the last one. -/
theorem Tracked.advance (tracked : world.Tracked)
    (found : world.tasks.lookup task = some (client, stage)) {next : DirClient P}
    (others : ∀ other ≠ task, next.queries.lookup other = (world.clients client).queries.lookup other)
    (own : ∀ running, next.queries.lookup task = some running → stage.key? = some running.key)
    (accepted : next.accepted = (world.clients client).accepted) :
    (world.advance task client next).Tracked := by
  have moved := tracked.setClient found others own (accepted ▸ List.Subset.refl _)
  rw [PublishWorld.advance]
  split
  · exact moved
  · rename_i ended
    refine moved.finish (moved.idle found ?_)
    rw [setClient_own]
    exact AList.lookup_eq_none.mpr ended

/-- A task goes on with a response which its client has accepted for its name. -/
theorem Tracked.resume (tracked : world.Tracked)
    (found : world.tasks.lookup task = some (client, stage)) (idle : world.Idle task)
    {key : String} (named : stage.key? = some key) {response : DirectoryResponse P}
    (accepted : (key, response) ∈ (world.clients client).accepted) (late : Bool) :
    (world.resume task client response late stage).Tracked := by
  cases stage with
  | querying _ => exact tracked.finish idle
  | inserting _ => exact tracked
  | reading operation signer =>
      simp only [PublishWorld.resume]
      split
      · exact tracked.finish idle
      · rename_i update signed
        obtain ⟨valid, prev⟩ := OwnerOperation.sign_spec signed
        refine tracked.setStage idle ?_
        intro publication same
        cases same
        exact ⟨valid, prev⟩
  | waiting publication =>
      cases named
      have finished := tracked.finish idle
      simp only [PublishWorld.resume]
      split
      · rename_i landed
        obtain ⟨update, listed, same⟩ := List.any_eq_true.mp landed
        refine ⟨finished.asked, finished.linked, ?_⟩
        intro other member
        rcases List.mem_append.mp member with earlier | new
        · exact tracked.returned other earlier
        · rw [List.mem_singleton.mp new]
          exact ⟨tracked.linked task client _ publication found rfl, client, response, accepted,
            update, listed, of_decide_eq_true same⟩
      · split
        · exact finished
        · exact tracked

section Steps

variable {decompress : Bytes → Option S.Proof} {keys : AnchorKeys P}
  {equixVerify : Bytes → Bytes → Bool} {next : PublishWorld S}

/-- A fetch keeps the record of who asks. -/
theorem Tracked.fetch (tracked : world.Tracked) {response : Option (DirectoryResponse P)}
    {evicted : Bool} {anchors : List (Option (DirectoryAnchor P))}
    (taken : (machine decompress keys equixVerify).step world
      (.fetch task response evicted anchors) = some next) : next.Tracked := by
  simp only [machine] at taken
  split at taken
  · cases taken
  · rename_i client stage found
    split at taken
    · cases taken
    · rename_i key named
      split_ifs at taken
      obtain ⟨later, moved, rfl⟩ := Option.map_eq_some_iff.mp taken
      obtain ⟨new, accepted, same | ⟨running, asks, inserted⟩⟩ := DirClient.step_fetch moved
      · refine tracked.advance found (fun other _ => by rw [same]) ?_ accepted
        intro running asking
        rw [same, AList.lookup_eq_none.mpr new] at asking
        cases asking
      · refine tracked.advance found ?_ ?_ accepted
        · intro other apart
          rw [inserted, AList.lookup_insert_ne apart]
        · intro other asking
          rw [inserted, AList.lookup_insert] at asking
          cases asking
          exact asks ▸ named

/-- A synchronization keeps the record of who asks. -/
theorem Tracked.sync (tracked : world.Tracked) {replies : List (Option (List (DirectoryHeader P)))}
    (taken : (machine decompress keys equixVerify).step world (.sync task replies) = some next) :
    next.Tracked := by
  simp only [machine] at taken
  split at taken
  · cases taken
  · rename_i client stage found
    obtain ⟨later, moved, rfl⟩ := Option.map_eq_some_iff.mp taken
    obtain ⟨running, asking, accepted, erased | inserted⟩ := DirClient.step_sync moved
    · refine tracked.advance found ?_ ?_ accepted
      · intro other apart
        rw [erased, AList.lookup_erase_ne apart]
      · intro other still
        rw [erased, AList.lookup_erase] at still
        cases still
    · refine tracked.advance found ?_ ?_ accepted
      · intro other apart
        rw [inserted, AList.lookup_insert_ne apart]
      · intro other still
        rw [inserted, AList.lookup_insert] at still
        cases still
        obtain ⟨kept, stands, named⟩ := tracked.asked client task running asking
        cases found.symm.trans stands
        exact named

/-- A verification keeps the record of who asks. -/
theorem Tracked.verify (tracked : world.Tracked) {late : Bool}
    (taken : (machine decompress keys equixVerify).step world (.verify task late) = some next) :
    next.Tracked := by
  simp only [machine] at taken
  split at taken
  · cases taken
  · rename_i client stage found
    split at taken
    · cases taken
    · rename_i later moved
      obtain ⟨running, asking, erased, _⟩ := DirClient.step_verify moved
      obtain ⟨kept, stands, named⟩ := tracked.asked client task running asking
      cases found.symm.trans stands
      have grows : (world.clients client).accepted ⊆ later.accepted := by
        obtain ⟨_, _, _, same | more⟩ := DirClient.step_verify moved
        · exact same ▸ List.Subset.refl _
        · exact more ▸ List.subset_append_left _ _
      have settled : (world.setClient client later).Tracked := by
        refine tracked.setClient found ?_ ?_ grows
        · intro other apart
          rw [erased, AList.lookup_erase_ne apart]
        · intro other still
          rw [erased, AList.lookup_erase] at still
          cases still
      have idle : (world.setClient client later).Idle task := by
        refine settled.idle found ?_
        rw [setClient_own, erased, AList.lookup_erase]
      split at taken
      · cases taken
        exact settled.finish idle
      · rename_i response answered
        cases taken
        obtain ⟨other, same, more⟩ := DirClient.answered_verify moved answered
        cases asking.symm.trans same
        refine settled.resume found idle named ?_ late
        rw [setClient_own, more]
        exact List.mem_append_right _ (List.mem_singleton_self _)

/-- Every step keeps the record of who asks. -/
theorem Tracked.step (tracked : world.Tracked) {event : PublishEvent P}
    (taken : (machine decompress keys equixVerify).step world event = some next) :
    next.Tracked := by
  cases event with
  | directory event =>
      obtain ⟨primary, _, rfl⟩ := Option.map_eq_some_iff.mp taken
      exact ⟨tracked.asked, tracked.linked, tracked.returned⟩
  | issue =>
      cases taken
      exact ⟨tracked.asked, tracked.linked, tracked.returned⟩
  | query task client key | operate task client operation signer =>
      simp only [machine] at taken
      split_ifs at taken with known
      cases taken
      exact tracked.setStage (tracked.idle_of_new known) fun _ signed => by cases signed
  | fetch task response evicted anchors => exact tracked.fetch taken
  | sync task replies => exact tracked.sync taken
  | verify task late => exact tracked.verify taken
  | inserted task accepted =>
      simp only [machine] at taken
      split at taken
      · rename_i client publication found
        have idle := tracked.idle_of_inserting found rfl
        split_ifs at taken
        · cases taken
          refine tracked.setStage idle ?_
          intro other signed
          cases signed
          exact tracked.linked task client _ publication found rfl
        · cases taken
          exact tracked.finish idle
      · cases taken
  | drop task =>
      simp only [machine] at taken
      split at taken
      · cases taken
      · rename_i client stage found
        cases taken
        have gone : ((world.clients client).drop task).queries.lookup task = none :=
          AList.lookup_erase _ _
        have settled : (world.setClient client ((world.clients client).drop task)).Tracked := by
          refine tracked.setClient found (fun other apart => AList.lookup_erase_ne apart) ?_
            (List.Subset.refl _)
          intro running still
          cases gone.symm.trans still
        refine settled.finish (settled.idle found ?_)
        rw [setClient_own, gone]
  | restart client =>
      cases taken
      refine ⟨?_, ?_, ?_⟩
      · intro other number running listed
        simp only [PublishWorld.setClient, Function.update_apply] at listed
        split at listed
        · simp at listed
        · rename_i foreign
          obtain ⟨stage, stands, named⟩ := tracked.asked other number running listed
          refine ⟨stage, (Table.lookup_keep ?_).trans stands, named⟩
          intro row found
          cases stands.symm.trans found
          exact decide_eq_true foreign
      · exact fun number other stage publication stands =>
          tracked.linked number other stage publication (Table.lookup_of_lookup_keep stands)
      · intro publication listed
        obtain ⟨linked, owner, response, shown, held⟩ := tracked.returned publication listed
        refine ⟨linked, owner, response, ?_, held⟩
        simp only [PublishWorld.setClient, Function.update_apply]
        split
        · rename_i same
          exact same ▸ shown
        · exact shown

/-- Tasks leave the primary alone, and what it has signed. -/
theorem step_tasks {event : PublishEvent P} (task : ∀ other, event ≠ .directory other)
    (silent : event ≠ .issue)
    (taken : (machine decompress keys equixVerify).step world event = some next) :
    next.primary = world.primary ∧ next.issued = world.issued := by
  have advanced : ∀ task client (later : DirClient P),
      (world.advance task client later).primary = world.primary ∧
        (world.advance task client later).issued = world.issued := by
    intro task client later
    rw [PublishWorld.advance]
    split <;> exact ⟨rfl, rfl⟩
  cases event with
  | directory event => exact absurd rfl (task event)
  | issue => exact absurd rfl silent
  | query task client key | operate task client operation signer =>
      simp only [machine] at taken
      split_ifs at taken
      cases taken
      exact ⟨rfl, rfl⟩
  | fetch task response evicted anchors =>
      simp only [machine] at taken
      split at taken
      · cases taken
      · split at taken
        · cases taken
        · split_ifs at taken
          obtain ⟨later, _, rfl⟩ := Option.map_eq_some_iff.mp taken
          exact advanced _ _ later
  | sync task replies =>
      simp only [machine] at taken
      split at taken
      · cases taken
      · obtain ⟨later, _, rfl⟩ := Option.map_eq_some_iff.mp taken
        exact advanced _ _ later
  | verify task late =>
      simp only [machine] at taken
      split at taken
      · cases taken
      · rename_i client stage found
        split at taken
        · cases taken
        · split at taken
          · cases taken
            exact ⟨rfl, rfl⟩
          · cases taken
            cases stage with
            | querying _ | inserting _ => exact ⟨rfl, rfl⟩
            | reading operation signer =>
                simp only [PublishWorld.resume]
                split <;> exact ⟨rfl, rfl⟩
            | waiting publication =>
                simp only [PublishWorld.resume]
                split_ifs <;> exact ⟨rfl, rfl⟩
  | inserted task accepted =>
      simp only [machine] at taken
      split at taken
      · split_ifs at taken <;> cases taken <;> exact ⟨rfl, rfl⟩
      · cases taken
  | drop task =>
      simp only [machine] at taken
      split at taken
      · cases taken
      · cases taken
        exact ⟨rfl, rfl⟩
  | restart client =>
      cases taken
      exact ⟨rfl, rfl⟩

/-- What every run keeps of the primary, and of what it has signed. -/
structure Anchored (world : PublishWorld S) : Prop where
  serving : world.primary.Serving
  issued : ∀ anchor ∈ world.issued, HeaderTable.Names world.primary.db.headerChain anchor

theorem anchored_fresh (store : S.Store) : (fresh store).Anchored where
  serving := Primary.serving_fresh store
  issued _ listed := absurd listed List.not_mem_nil

/-- Every step keeps the clients on the primary's chain, and forgets no anchor. -/
theorem Anchored.step (free : P.CollisionFree) (functional : S.Functional [])
    (anchored : world.Anchored) {event : PublishEvent P}
    (taken : (machine decompress keys equixVerify).step world event = some next) :
    next.Anchored ∧ world.issued ⊆ next.issued := by
  by_cases directory : ∃ other, event = .directory other
  · obtain ⟨other, rfl⟩ := directory
    obtain ⟨primary, moved, rfl⟩ := Option.map_eq_some_iff.mp taken
    obtain ⟨serving, grows⟩ := anchored.serving.step free functional moved
    refine ⟨⟨serving, fun anchor listed => ?_⟩, List.Subset.refl _⟩
    exact (anchored.issued anchor listed).grow
      (grows.headerChain anchored.serving.ledger serving.ledger)
  · by_cases issue : event = .issue
    · subst issue
      cases taken
      refine ⟨⟨anchored.serving, fun anchor listed => ?_⟩, List.subset_append_left _ _⟩
      rcases List.mem_append.mp listed with earlier | new
      · exact anchored.issued anchor earlier
      · exact (DirectoryDb.Grows.refl _).names_anchor anchored.serving.ledger
          anchored.serving.ledger (Option.mem_toList.mp new)
    · obtain ⟨primary, issued⟩ := step_tasks (fun other same => directory ⟨other, same⟩) issue taken
      refine ⟨⟨primary ▸ anchored.serving, ?_⟩, issued ▸ List.Subset.refl _⟩
      rw [primary, issued]
      exact anchored.issued

/-- A client which drops a query stays consistent. -/
theorem consistent_drop {chain : AnchoredChain S} {reader : DirClient P}
    (consistent : DirClient.Consistent chain reader) (query : Nat) :
    DirClient.Consistent chain (reader.drop query) := by
  obtain ⟨stored, stores, held⟩ := consistent.stored
  exact ⟨⟨stored, stores, fun other running found =>
    held other running (Table.lookup_of_lookup_erase found)⟩, consistent.cached, consistent.accepted⟩

/-- Every client goes along a chain on which the signed anchors are. -/
theorem consistent_step (free : P.CollisionFree) (binding : S.Binding) {chain : AnchoredChain S}
    (consistent : ∀ client, DirClient.Consistent chain (world.clients client))
    (contained : ∀ anchor ∈ world.issued, chain.Contains anchor) {event : PublishEvent P}
    (taken : (machine decompress keys equixVerify).step world event = some next) :
    ∀ client, DirClient.Consistent chain (next.clients client) := by
  have placed : ∀ {client : Nat} {later : DirClient P}, DirClient.Consistent chain later →
      ∀ other, DirClient.Consistent chain ((world.setClient client later).clients other) := by
    intro client later kept other
    simp only [PublishWorld.setClient, Function.update_apply]
    split
    · exact kept
    · exact consistent other
  have advanced : ∀ {task client : Nat} {later : DirClient P}, DirClient.Consistent chain later →
      ∀ other, DirClient.Consistent chain ((world.advance task client later).clients other) := by
    intro task client later kept other
    rw [PublishWorld.advance]
    split <;> exact placed kept other
  have silent : ∀ event : DirClientEvent P, event.anchors = [] →
      chain.Covers keys.anchorPk [event] := by
    intro event none other listed anchor offered
    rw [List.mem_singleton.mp listed, none] at offered
    cases offered
  cases event with
  | directory event =>
      obtain ⟨primary, _, rfl⟩ := Option.map_eq_some_iff.mp taken
      exact consistent
  | issue =>
      cases taken
      exact consistent
  | query task client key | operate task client operation signer =>
      simp only [machine] at taken
      split_ifs at taken
      cases taken
      exact consistent
  | fetch task response evicted anchors =>
      simp only [machine] at taken
      split at taken
      · cases taken
      · rename_i client stage found
        split at taken
        · cases taken
        · split_ifs at taken with genuine
          obtain ⟨later, moved, rfl⟩ := Option.map_eq_some_iff.mp taken
          refine advanced ((consistent client).step free binding ?_ moved)
          intro other listed anchor offered signed
          rw [List.mem_singleton.mp listed] at offered
          exact contained anchor (genuine anchor (List.reduceOption_mem_iff.mpr offered) signed)
  | sync task replies =>
      simp only [machine] at taken
      split at taken
      · cases taken
      · rename_i client stage found
        obtain ⟨later, moved, rfl⟩ := Option.map_eq_some_iff.mp taken
        exact advanced ((consistent client).step free binding (silent _ rfl) moved)
  | verify task late =>
      simp only [machine] at taken
      split at taken
      · cases taken
      · rename_i client stage found
        split at taken
        · cases taken
        · rename_i later moved
          have kept := (consistent client).step free binding (silent _ rfl) moved
          split at taken
          · cases taken
            exact placed kept
          · cases taken
            cases stage with
            | querying _ | inserting _ => exact placed kept
            | reading operation signer =>
                simp only [PublishWorld.resume]
                split <;> exact placed kept
            | waiting publication =>
                simp only [PublishWorld.resume]
                split_ifs <;> exact placed kept
  | inserted task accepted =>
      simp only [machine] at taken
      split at taken
      · split_ifs at taken <;> cases taken <;> exact consistent
      · cases taken
  | drop task =>
      simp only [machine] at taken
      split at taken
      · cases taken
      · rename_i client stage found
        cases taken
        exact placed (consistent_drop (consistent client) task)
  | restart client =>
      simp only [machine] at taken
      obtain ⟨later, moved, rfl⟩ := Option.map_eq_some_iff.mp taken
      exact placed ((consistent client).step free binding (silent _ rfl) moved)

variable {store : S.Store} {events : List (PublishEvent P)}

/-- In every run it is known who asks. -/
theorem tracked_exec
    (reached : (machine decompress keys equixVerify).exec (fresh store) events = some world) :
    world.Tracked :=
  Machine.inv_of_exec Tracked (fun tracked taken _ => tracked.step taken)
    (tracked_fresh store) reached

/-- In every run the clients stay on the primary's chain. -/
theorem anchored_exec (free : P.CollisionFree) (functional : S.Functional [])
    {start : PublishWorld S} (anchored : start.Anchored)
    (reached : (machine decompress keys equixVerify).exec start events = some world) :
    world.Anchored ∧ start.issued ⊆ world.issued := by
  refine Machine.inv_of_exec
    (fun later : PublishWorld S => later.Anchored ∧ start.issued ⊆ later.issued) ?_
    ⟨anchored, List.Subset.refl _⟩ reached
  rintro state event next rest ⟨held, within⟩ taken _
  obtain ⟨kept, more⟩ := held.step free functional taken
  exact ⟨kept, List.Subset.trans within more⟩

/-- What a client accepts is part of the committed history. -/
theorem accepted_committed (free : P.CollisionFree) (functional : S.Functional [])
    (binding : S.Binding) (complete : S.Complete)
    (reached : (machine decompress keys equixVerify).exec (fresh store) events = some world)
    (key : String) : ∃ history, world.primary.db.committed key = .ok history ∧
      ∀ client response, (key, response) ∈ (world.clients client).accepted →
        response.history <+: history := by
  obtain ⟨anchored, _⟩ := anchored_exec free functional (anchored_fresh store) reached
  have ledger := anchored.serving.ledger
  obtain ⟨history, committed, above⟩ := ledger.historyUnder_committed key
  refine ⟨history, committed, ?_⟩
  -- Every client of the run goes along the chain which the primary has at the end.
  have chained := Machine.inv_of_exec (fun state : PublishWorld S => state.Anchored ∧
      ∀ client, DirClient.Consistent
        (world.primary.db.chain ledger anchored.serving.spelled complete) (state.clients client))
    (fun {state event next rest} held taken onward => by
      obtain ⟨kept, _⟩ := held.1.step free functional taken
      have ahead : (machine decompress keys equixVerify).exec state (event :: rest) = some world := by
        rw [Machine.exec_cons, taken]
        exact onward
      obtain ⟨_, later⟩ := anchored_exec free functional held.1 ahead
      exact ⟨kept, consistent_step free binding held.2
        (fun anchor listed => anchored.issued anchor (later listed)) taken⟩)
    ⟨anchored_fresh store, fun _ => DirClient.consistent_fresh _⟩ reached
  intro client response accepted
  rw [(chained.2 client).accepted key response accepted]
  exact above response.proofHeight

/-- What an operation which returned `Ok` left in the committed history. -/
theorem returned_committed (free : P.CollisionFree) (functional : S.Functional [])
    (binding : S.Binding) (complete : S.Complete)
    (reached : (machine decompress keys equixVerify).exec (fresh store) events = some world)
    (key : String) : ∃ history, world.primary.db.committed key = .ok history ∧
      history.Nodup ∧ ∀ publication ∈ world.returned, publication.key = key →
        publication.line <+: history := by
  obtain ⟨history, committed, above⟩ :=
    accepted_committed free functional binding complete reached key
  obtain ⟨anchored, _⟩ := anchored_exec free functional (anchored_fresh store) reached
  have linked := (anchored.serving.ledger.valid_committed committed).linked
  refine ⟨history, committed, linked.nodup free.updates, ?_⟩
  rintro publication listed rfl
  obtain ⟨⟨valid, prev⟩, client, response, accepted, update, member, same⟩ :=
    (tracked_exec reached).returned publication listed
  cases free.updates.injective same
  have within := (above client response accepted).subset member
  rw [prevUpdateHash_eq_tip] at prev
  exact linked.snoc_prefix free.updates valid.linked within prev

end Steps

/-! ## The main results -/

/-- The operation is in the committed history of its name, once: behind what it was shown,
and in front of what came later. -/
def Landed (world : PublishWorld S) (publication : Publication P) : Prop :=
  ∃ later, world.primary.db.committed publication.key = .ok (publication.line ++ later) ∧
    publication.update ∉ publication.history ∧ publication.update ∉ later

/-- In every run, at every moment after an operation returned `Ok`, it is in the committed
history, directly behind the history over which it was signed. -/
theorem landed_always (free : P.CollisionFree) (functional : S.Functional [])
    (binding : S.Binding) (complete : S.Complete) (decompress : Bytes → Option S.Proof)
    (keys : AnchorKeys P) (equixVerify : Bytes → Bytes → Bool) (store : S.Store)
    (events : List (PublishEvent P)) :
    (machine decompress keys equixVerify).Always
      (fun world => ∀ publication ∈ world.returned, world.Landed publication)
      (fresh store) events := by
  intro before _ world reached publication listed
  obtain ⟨history, committed, nodup, lines⟩ :=
    returned_committed free functional binding complete reached publication.key
  obtain ⟨later, rfl⟩ := lines publication listed rfl
  refine ⟨later, committed, ?_⟩
  rw [Publication.line, List.append_assoc, List.nodup_append] at nodup
  obtain ⟨_, behind, apart⟩ := nodup
  constructor
  · exact fun earlier => apart _ earlier _ (List.mem_append_left _ (List.mem_singleton_self _)) rfl
  · rw [List.singleton_append, List.nodup_cons] at behind
    exact behind.1

/-- The operations on each name have an order: each was shown the result of every earlier one. -/
def Serial (world : PublishWorld S) : Prop :=
  ∀ first ∈ world.returned, ∀ second ∈ world.returned, first.key = second.key →
    first.line <+: second.history ∨ second.line <+: first.history ∨ first = second

/-- No verified answer shows a part of what an operation did. -/
def Whole (world : PublishWorld S) : Prop :=
  ∀ publication ∈ world.returned, ∀ client response,
    (publication.key, response) ∈ (world.clients client).accepted →
      response.history <+: publication.history ∨ publication.line <+: response.history

/-- In every run of any number of clients, the operations which returned `Ok` are serial, and
every verified answer is from before an operation or has all of it. -/
theorem serial_always (free : P.CollisionFree) (functional : S.Functional [])
    (binding : S.Binding) (complete : S.Complete) (decompress : Bytes → Option S.Proof)
    (keys : AnchorKeys P) (equixVerify : Bytes → Bytes → Bool) (store : S.Store)
    (events : List (PublishEvent P)) :
    (machine decompress keys equixVerify).Always (fun world => world.Serial ∧ world.Whole)
      (fresh store) events := by
  intro before _ world reached
  constructor
  · intro first firstListed second secondListed name
    obtain ⟨history, _, _, lines⟩ :=
      returned_committed free functional binding complete reached first.key
    rcases appends_ordered (lines first firstListed rfl) (lines second secondListed name.symm) with
      under | above | ⟨histories, updates⟩
    · exact .inl under
    · exact .inr (.inl above)
    · obtain ⟨key, history, update⟩ := first
      cases name
      cases histories
      cases updates
      exact .inr (.inr rfl)
  · intro publication listed client response accepted
    obtain ⟨history, committed, _, lines⟩ :=
      returned_committed free functional binding complete reached publication.key
    obtain ⟨other, same, above⟩ :=
      accepted_committed free functional binding complete reached publication.key
    cases committed.symm.trans same
    exact append_seen (above client response accepted) (lines publication listed rfl)

def laterCommit : CommitEnv := ⟨30, fun _ => false⟩

def nextUpdate : DirectoryUpdate symbolic :=
  signedUpdate (firstUpdate 1).hash (.addOwner (2 : UInt8)) (1 : UInt8)

def thirdHeader : DirectoryHeader symbolic :=
  ⟨DirClient.secondHeader.hash, Bcs.toBytes ((DirectoryDb.keyHash (P := symbolic) "@alice",
    Bcs.toBytes [firstUpdate 1, nextUpdate]) :: DirClient.twoContents 1), 30⟩

/-- A task gets an answer and the anchor of some headers, of which its client lacks the rest. -/
def fetched (task : Nat) (response : DirectoryResponse symbolic)
    (headers missing : List (DirectoryHeader symbolic)) : List (PublishEvent symbolic) :=
  [.fetch task (some response) false [v1GetAnchor SharedClients.symbolicKeys headers],
    .sync task [some missing], .verify task false]

/-- An update reaches the primary, which commits it. -/
def committedRun (task : Nat) (update : DirectoryUpdate symbolic) : List (PublishEvent symbolic) :=
  [.directory (.insertRead task Primary.quietInsert alice.str update Primary.zeroSolution),
    .directory (.insertPush task), .inserted task true, .directory .commitTake,
    .directory (.commitFinish laterCommit), .issue]

/-- A client claims "@alice". -/
def claimRun : List (PublishEvent symbolic) :=
  [.directory (.getPowSeed [9] 0 true true), .directory .commitTake,
      .directory (.commitFinish Primary.quietCommit), .issue,
      .operate 0 0 (.addOwner alice (1 : UInt8)) (1 : UInt8)] ++
    fetched 0 (DirClient.aliceAt 0) [DirClient.firstHeader] [DirClient.firstHeader] ++
    committedRun 0 (firstUpdate 1) ++
    fetched 0 (DirClient.aliceAt 1) [DirClient.firstHeader, DirClient.secondHeader]
      [DirClient.secondHeader]

/-- Another client makes a second key an owner. -/
def addRun : List (PublishEvent symbolic) :=
  .operate 1 1 (.addOwner alice (2 : UInt8)) (1 : UInt8) ::
    fetched 1 (DirClient.aliceAt 1) [DirClient.firstHeader, DirClient.secondHeader]
      [DirClient.firstHeader, DirClient.secondHeader] ++
    committedRun 1 nextUpdate ++
    fetched 1 ⟨[firstUpdate 1, nextUpdate], 2, []⟩
      [DirClient.firstHeader, DirClient.secondHeader, thirdHeader] [thirdHeader]

def symbolicRun (events : List (PublishEvent symbolic)) : Option (PublishWorld symbolicSmt) :=
  (machine (fun _ => some ()) SharedClients.symbolicKeys fun _ _ => true).exec (fresh ()) events

def aliceClaims : Publication symbolic := ⟨alice.str, [], firstUpdate 1⟩

def aliceAdds : Publication symbolic := ⟨alice.str, [firstUpdate 1], nextUpdate⟩

/-- In the run in which Alice's client claims her name, the update has landed. -/
theorem landed_always_claimed : ∃ world : PublishWorld symbolicSmt,
    symbolicRun claimRun = some world ∧ world.Landed aliceClaims := by
  have returns : (symbolicRun claimRun).map PublishWorld.returned = some [aliceClaims] := by
    decide +kernel
  obtain ⟨world, reached, returned⟩ := Option.map_eq_some_iff.mp returns
  have always := landed_always symbolic_collisionFree symbolicSmt_functional symbolicSmt_binding
    symbolicSmt_complete (fun _ => some ()) SharedClients.symbolicKeys (fun _ _ => true) () claimRun
  refine ⟨world, reached, always.last reached aliceClaims ?_⟩
  rw [returned]
  exact List.mem_singleton_self _

/-- In the run in which another client makes a second key an owner, the updates are serial. -/
theorem serial_always_added : ∃ world : PublishWorld symbolicSmt,
    symbolicRun (claimRun ++ addRun) = some world ∧ world.returned = [aliceClaims, aliceAdds] ∧
      world.Serial ∧ world.Whole := by
  have returns : (symbolicRun (claimRun ++ addRun)).map PublishWorld.returned =
      some [aliceClaims, aliceAdds] := by
    decide +kernel
  obtain ⟨world, reached, returned⟩ := Option.map_eq_some_iff.mp returns
  have always := serial_always symbolic_collisionFree symbolicSmt_functional symbolicSmt_binding
    symbolicSmt_complete (fun _ => some ()) SharedClients.symbolicKeys (fun _ _ => true) ()
    (claimRun ++ addRun)
  exact ⟨world, reached, returned, always.last reached⟩

end PublishWorld
end Nullspace
