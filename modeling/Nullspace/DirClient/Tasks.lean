import Nullspace.DirClient.Serial

/-!
# What a step does to a task

The run of `DirClient/Publishing` from the side of one task: it goes on, or it is over with a
verified answer, with an operation which returned, or without a result. `step_task` says which
of them a step can be, and `step_grows` that no step takes a result back.
-/

namespace Nullspace

open Nullspace.Base

variable {P : Primitives} {S : Smt P}

/-- How a task goes on. -/
inductive TaskStage.Follows : TaskStage P → TaskStage P → Prop
  | same (stage : TaskStage P) : Follows stage stage
  | signed {operation : OwnerOperation P} {signer : P.SigningSecret}
      {response : DirectoryResponse P} {update : DirectoryUpdate P}
      (signs : operation.sign response signer = .ok update) :
      Follows (.reading operation signer) (.inserting ⟨operation.key, response.history, update⟩)
  | accepted (publication : Publication P) : Follows (.inserting publication) (.waiting publication)

namespace PublishWorld

/-- A task goes on, or it is over: a query with a verified answer, an operation which returned,
or without a result. -/
inductive TaskStep (world next : PublishWorld S) (task client : Nat) (stage : TaskStage P) : Prop
  | goesOn {later : TaskStage P} (found : next.tasks.lookup task = some (client, later))
      (follows : stage.Follows later)
  | ends (gone : task ∉ next.tasks)
      (answers : ∀ response, (world.clients client).answered (next.clients client) = some response →
        ∃ key, stage.key? = some key ∧ (key, response) ∈ (next.clients client).accepted)
      (returns : next.returned = world.returned ∨ ∃ publication, stage = .waiting publication ∧
        next.returned = world.returned ++ [publication])

section Steps

variable {decompress : Bytes → Option S.Proof} {keys : AnchorKeys P}
  {equixVerify : Bytes → Bytes → Bool} {world next : PublishWorld S} {task client : Nat}
  {stage : TaskStage P}

theorem answered_of_same {reader later : DirClient P} (same : later.accepted = reader.accepted) :
    reader.answered later = none := by
  rw [DirClient.answered, same, List.getElem?_eq_none (Nat.le_refl _)]
  rfl

/-- A finished task is gone. -/
theorem finish_gone (world : PublishWorld S) (task : Nat) : task ∉ (world.finish task).tasks :=
  AList.lookup_eq_none.mp (AList.lookup_erase _ _)

/-- A client which is set has accepted what it is set to. -/
theorem setClient_accepted (world : PublishWorld S) (client : Nat) (later : DirClient P) :
    ((world.setClient client later).clients client).accepted = later.accepted :=
  congrArg DirClient.accepted (setClient_own world client later)

/-- A task which a step leaves alone stays in its stage. -/
theorem taskStep_untouched (found : world.tasks.lookup task = some (client, stage))
    (same : next.tasks.lookup task = world.tasks.lookup task) :
    TaskStep world next task client stage :=
  .goesOn (same.trans found) (.same stage)

/-- A step which ends in an error. -/
theorem taskStep_gone (gone : task ∉ next.tasks)
    (accepted : (next.clients client).accepted = (world.clients client).accepted)
    (returned : next.returned = world.returned) : TaskStep world next task client stage := by
  refine .ends gone (fun response answered => ?_) (.inl returned)
  rw [answered_of_same accepted] at answered
  cases answered

/-- A client which accepts nothing advances no other task. -/
theorem taskStep_advance (found : world.tasks.lookup task = some (client, stage)) {other : Nat}
    {owner : Nat × TaskStage P} (owned : world.tasks.lookup other = some owner)
    {later : DirClient P} (accepted : later.accepted = (world.clients owner.1).accepted) :
    TaskStep world (world.advance other owner.1 later) task client stage := by
  rw [PublishWorld.advance]
  split
  · exact taskStep_untouched found rfl
  · by_cases own : other = task
    · subst own
      cases owned.symm.trans found
      exact taskStep_gone (finish_gone _ _) ((setClient_accepted world client later).trans accepted) rfl
    · exact taskStep_untouched found (AList.lookup_erase_ne (Ne.symm own))

/-- A verified response reaches the task which asked for it. -/
theorem taskStep_resume (found : world.tasks.lookup task = some (client, stage))
    {later : DirClient P} {response : DirectoryResponse P} {key : String}
    (named : stage.key? = some key)
    (accepted : later.accepted = (world.clients client).accepted ++ [(key, response)]) (late : Bool) :
    TaskStep world ((world.setClient client later).resume task client response late stage) task
      client stage := by
  have own : ∀ {after : PublishWorld S}, after.clients = (world.setClient client later).clients →
      ∀ other, (world.clients client).answered (after.clients client) = some other →
        ∃ key, stage.key? = some key ∧ (key, other) ∈ (after.clients client).accepted := by
    intro after same other answered
    rw [same, setClient_own] at answered ⊢
    rw [DirClient.answered, accepted, List.getElem?_append_right (Nat.le_refl _),
      Nat.sub_self] at answered
    cases answered
    refine ⟨key, named, ?_⟩
    rw [accepted]
    exact List.mem_append_right _ (List.mem_singleton_self _)
  cases stage with
  | querying _ => exact .ends (finish_gone _ _) (own rfl) (.inl rfl)
  | inserting _ => cases named
  | reading operation signer =>
      simp only [PublishWorld.resume]
      split
      · exact .ends (finish_gone _ _) (own rfl) (.inl rfl)
      · rename_i update signs
        exact .goesOn (AList.lookup_insert _) (.signed signs)
  | waiting publication =>
      simp only [PublishWorld.resume]
      split_ifs
      · exact .ends (finish_gone _ _) (own rfl) (.inr ⟨publication, rfl, rfl⟩)
      · exact .ends (finish_gone _ _) (own rfl) (.inl rfl)
      · exact taskStep_untouched found rfl

/-- Resuming a task leaves the others alone. -/
theorem resume_tasks_ne {other : Nat} (apart : task ≠ other) (response : DirectoryResponse P)
    (late : Bool) : (world.resume other client response late stage).tasks.lookup task =
      world.tasks.lookup task := by
  cases stage with
  | querying _ => exact AList.lookup_erase_ne apart
  | inserting _ => rfl
  | reading operation signer =>
      simp only [PublishWorld.resume]
      split
      · exact AList.lookup_erase_ne apart
      · exact AList.lookup_insert_ne apart
  | waiting publication =>
      simp only [PublishWorld.resume]
      split_ifs
      · exact AList.lookup_erase_ne apart
      · exact AList.lookup_erase_ne apart
      · rfl

/-- What a step does to one task. -/
theorem step_task (tracked : world.Tracked) {event : PublishEvent P}
    (found : world.tasks.lookup task = some (client, stage))
    (taken : (machine decompress keys equixVerify).step world event = some next) :
    TaskStep world next task client stage := by
  cases event with
  | directory event =>
      obtain ⟨primary, _, rfl⟩ := Option.map_eq_some_iff.mp taken
      exact taskStep_untouched found rfl
  | issue =>
      cases taken
      exact taskStep_untouched found rfl
  | query other reader key | operate other reader operation signer =>
      simp only [machine] at taken
      split_ifs at taken with known
      cases taken
      refine taskStep_untouched found (AList.lookup_insert_ne ?_)
      rintro rfl
      exact known (AList.lookup_isSome.mp (by rw [found]; rfl))
  | fetch other response evicted anchors =>
      simp only [machine] at taken
      split at taken
      · cases taken
      · rename_i reader kept owned
        split at taken
        · cases taken
        · split_ifs at taken
          obtain ⟨later, moved, rfl⟩ := Option.map_eq_some_iff.mp taken
          exact taskStep_advance found owned (DirClient.step_fetch moved).2.1
  | sync other replies =>
      simp only [machine] at taken
      split at taken
      · cases taken
      · rename_i reader kept owned
        obtain ⟨later, moved, rfl⟩ := Option.map_eq_some_iff.mp taken
        obtain ⟨_, _, accepted, _⟩ := DirClient.step_sync moved
        exact taskStep_advance found owned accepted
  | verify other late =>
      simp only [machine] at taken
      split at taken
      · cases taken
      · rename_i reader kept owned
        split at taken
        · cases taken
        · rename_i later moved
          by_cases own : task = other
          · subst own
            cases owned.symm.trans found
            split at taken
            · rename_i unanswered
              cases taken
              refine .ends (finish_gone _ _) (fun response answered => ?_) (.inl rfl)
              have same : (world.clients client).answered later = some response := by
                have own := setClient_own world client later
                rwa [← own]
              cases unanswered.symm.trans same
            · rename_i response answered
              cases taken
              obtain ⟨running, asking, accepted⟩ := DirClient.answered_verify moved answered
              obtain ⟨_, stands, named⟩ := tracked.asked client task running asking
              cases owned.symm.trans stands
              exact taskStep_resume found named accepted late
          · split at taken
            · cases taken
              exact taskStep_untouched found (AList.lookup_erase_ne own)
            · cases taken
              exact taskStep_untouched found (resume_tasks_ne own _ late)
  | inserted other accepted =>
      simp only [machine] at taken
      split at taken
      · rename_i reader publication owned
        by_cases own : task = other
        · subst own
          cases owned.symm.trans found
          split_ifs at taken
          · cases taken
            exact .goesOn (AList.lookup_insert _) (.accepted publication)
          · cases taken
            exact taskStep_gone (finish_gone _ _) rfl rfl
        · split_ifs at taken
          · cases taken
            exact taskStep_untouched found (AList.lookup_insert_ne own)
          · cases taken
            exact taskStep_untouched found (AList.lookup_erase_ne own)
      · cases taken
  | drop other =>
      simp only [machine] at taken
      split at taken
      · cases taken
      · rename_i reader kept owned
        cases taken
        by_cases own : task = other
        · subst own
          cases owned.symm.trans found
          exact taskStep_gone (finish_gone _ _)
            (setClient_accepted world client ((world.clients client).drop task)) rfl
        · exact taskStep_untouched found (AList.lookup_erase_ne own)
  | restart reader =>
      cases taken
      by_cases own : client = reader
      · subst own
        refine taskStep_gone ?_ (setClient_accepted world client _) rfl
        · intro listed
          obtain ⟨row, kept⟩ := Option.isSome_iff_exists.mp (AList.lookup_isSome.mpr listed)
          have passes := (AList.mem_lookup_iff.mp (Option.mem_def.mpr kept))
          have check := (List.mem_filter.mp passes).2
          cases (Table.lookup_of_lookup_keep kept).symm.trans found
          exact of_decide_eq_true check rfl
      · refine taskStep_untouched found (Table.lookup_keep ?_)
        intro row listed
        cases found.symm.trans listed
        exact decide_eq_true own

/-- Nothing is forgotten of what was answered and of what returned. -/
theorem step_grows {event : PublishEvent P}
    (taken : (machine decompress keys equixVerify).step world event = some next) :
    (∀ reader, (world.clients reader).accepted ⊆ (next.clients reader).accepted) ∧
      world.returned ⊆ next.returned := by
  have placed : ∀ {reader : Nat} {later : DirClient P},
      (world.clients reader).accepted ⊆ later.accepted → ∀ other,
        (world.clients other).accepted ⊆ ((world.setClient reader later).clients other).accepted := by
    intro reader later grows other
    simp only [PublishWorld.setClient, Function.update_apply]
    split
    · rename_i same
      exact same ▸ grows
    · exact List.Subset.refl _
  have advanced : ∀ {other reader : Nat} {later : DirClient P},
      later.accepted = (world.clients reader).accepted →
        (∀ any, (world.clients any).accepted ⊆
            ((world.advance other reader later).clients any).accepted) ∧
          world.returned ⊆ (world.advance other reader later).returned := by
    intro other reader later same
    have grows : (world.clients reader).accepted ⊆ later.accepted := same ▸ List.Subset.refl _
    have kept := placed grows
    rw [PublishWorld.advance]
    split <;> exact ⟨kept, List.Subset.refl _⟩
  have quiet : (∀ reader, (world.clients reader).accepted ⊆ (world.clients reader).accepted) ∧
      world.returned ⊆ world.returned := ⟨fun _ => List.Subset.refl _, List.Subset.refl _⟩
  cases event with
  | directory event =>
      obtain ⟨primary, _, rfl⟩ := Option.map_eq_some_iff.mp taken
      exact quiet
  | issue =>
      cases taken
      exact quiet
  | query other reader key | operate other reader operation signer =>
      simp only [machine] at taken
      split_ifs at taken
      cases taken
      exact quiet
  | fetch other response evicted anchors =>
      simp only [machine] at taken
      split at taken
      · cases taken
      · split at taken
        · cases taken
        · split_ifs at taken
          obtain ⟨later, moved, rfl⟩ := Option.map_eq_some_iff.mp taken
          exact advanced (DirClient.step_fetch moved).2.1
  | sync other replies =>
      simp only [machine] at taken
      split at taken
      · cases taken
      · obtain ⟨later, moved, rfl⟩ := Option.map_eq_some_iff.mp taken
        obtain ⟨_, _, accepted, _⟩ := DirClient.step_sync moved
        exact advanced accepted
  | verify other late =>
      simp only [machine] at taken
      split at taken
      · cases taken
      · rename_i reader kept owned
        split at taken
        · cases taken
        · rename_i later moved
          have grows : (world.clients reader).accepted ⊆ later.accepted := by
            obtain ⟨_, _, _, same | more⟩ := DirClient.step_verify moved
            · exact same ▸ List.Subset.refl _
            · exact more ▸ List.subset_append_left _ _
          split at taken
          · cases taken
            exact ⟨placed grows, List.Subset.refl _⟩
          · cases taken
            cases kept with
            | querying _ | inserting _ => exact ⟨placed grows, List.Subset.refl _⟩
            | reading operation signer =>
                simp only [PublishWorld.resume]
                split <;> exact ⟨placed grows, List.Subset.refl _⟩
            | waiting publication =>
                simp only [PublishWorld.resume]
                split_ifs
                · exact ⟨placed grows, List.subset_append_left _ _⟩
                · exact ⟨placed grows, List.Subset.refl _⟩
                · exact ⟨placed grows, List.Subset.refl _⟩
  | inserted other accepted =>
      simp only [machine] at taken
      split at taken
      · split_ifs at taken <;> cases taken <;> exact quiet
      · cases taken
  | drop other =>
      simp only [machine] at taken
      split at taken
      · cases taken
      · cases taken
        exact ⟨placed (List.Subset.refl _), List.Subset.refl _⟩
  | restart reader =>
      cases taken
      exact ⟨placed (List.Subset.refl _), List.Subset.refl _⟩

end Steps

end PublishWorld

end Nullspace
