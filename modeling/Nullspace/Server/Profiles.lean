import Mathlib.Data.List.Perm.Basic
import Nullspace.Base.Register
import Nullspace.Server.TokenSecrecy

/-!
# Profiles submitted side by side

`profile_set` reads the user's devices first and opens its transaction afterwards, so other
submissions may come in between. The comparison of `created` is inside of the transaction:
whatever the order, the newest profile stays.
-/

namespace Nullspace

open Nullspace.Base

variable {P : Primitives}

namespace ServerDb

/-- A listed device of the user signed the profile. -/
def signedByDevice (db : ServerDb P) (username : UserName) (profile : UserProfile P) : Bool :=
  (db.certificatesOf username).any fun (_, chain) => Signable.verify profile chain.lastDevice.pk

/-- What `profile_set` checks before it opens its transaction. -/
def checkProfile (env : CallEnv P) (username : UserName) (profile : UserProfile P)
    (db : ServerDb P) : Except ServerRpcError Unit :=
  if env.dbFails then .error .retryLater
  else if !db.signedByDevice username profile then .error .accessDenied
  else if !fitsI64 profile.created then .error .retryLater
  else .ok ()

/-- The transaction of `profile_set`. -/
def commitProfile (env : CallEnv P) (username : UserName) (profile : UserProfile P)
    (db : ServerDb P) : ServerDb P × Except ServerRpcError Unit :=
  if env.dbFails then (db, .error .retryLater)
  else
    let stale : Bool :=
      match db.userProfiles.lookup username with
      | none => false
      | some previous => decide (profile.created ≤ previous.created)
    if stale then (db, .error .accessDenied)
    else ({ db with userProfiles := db.userProfiles.insert username profile }, .ok ())

/-- Alone, a call is its checks and then its transaction. -/
theorem profileSet_eq (env : CallEnv P) (username : UserName) (profile : UserProfile P)
    (db : ServerDb P) :
    db.profileSet env username profile =
      match db.checkProfile env username profile with
      | .error err => (db, .error err)
      | .ok () => db.commitProfile env username profile := by
  rw [profileSet, checkProfile, commitProfile, signedByDevice]
  cases env.dbFails with
  | true => rfl
  | false =>
      simp only [Bool.false_eq_true, if_false]
      split
      · rfl
      · split <;> rfl

/-- A profile passes when nothing fails, the user's device signed it and its time fits into a
column. -/
theorem checkProfile_ok {env : CallEnv P} {username : UserName} {profile : UserProfile P}
    {db : ServerDb P} : db.checkProfile env username profile = .ok () ↔
      env.dbFails = false ∧ db.signedByDevice username profile = true ∧
        fitsI64 profile.created = true := by
  rw [checkProfile]
  cases env.dbFails <;> cases db.signedByDevice username profile <;>
    cases fitsI64 profile.created <;> simp

/-- A profile which is stored changes no other table. -/
theorem commitProfile_frame (env : CallEnv P) (username : UserName) (profile : UserProfile P)
    (db : ServerDb P) : ∃ profiles,
      (db.commitProfile env username profile).1 = { db with userProfiles := profiles } := by
  rw [commitProfile]
  split
  · exact ⟨_, rfl⟩
  · dsimp only
    generalize (match db.userProfiles.lookup username with
      | none => false
      | some previous => decide (profile.created ≤ previous.created)) = stale
    cases stale with
    | true => exact ⟨_, rfl⟩
    | false => exact ⟨_, rfl⟩

/-- A profile which is not newer than the stored one changes nothing. -/
theorem commitProfile_stale {env : CallEnv P} {username : UserName} {profile stored : UserProfile P}
    {db : ServerDb P} (found : db.userProfiles.lookup username = some stored)
    (old : profile.created ≤ stored.created) :
    ∃ err, db.commitProfile env username profile = (db, .error err) := by
  rw [commitProfile]
  split
  · exact ⟨_, rfl⟩
  · simp only [found, old, decide_true, if_true]
    exact ⟨_, rfl⟩

/-- A profile which is not newer than the stored one is refused. -/
theorem profileSet_stale {env : CallEnv P} {username : UserName} {profile stored : UserProfile P}
    {db : ServerDb P} (found : db.userProfiles.lookup username = some stored)
    (old : profile.created ≤ stored.created) :
    ∃ err, db.profileSet env username profile = (db, .error err) := by
  rw [profileSet_eq]
  split
  · exact ⟨_, rfl⟩
  · exact commitProfile_stale found old

end ServerDb

/-- The server, the calls which have passed their checks, and the profiles on which a
transaction has decided. -/
structure ProfileRun (P : Primitives) where
  db : ServerDb P
  pending : List (UserProfile P)
  decided : List (UserProfile P)

inductive ProfileStep (P : Primitives) where
  /-- A call begins and reads the devices. -/
  | check (env : CallEnv P) (profile : UserProfile P)
  /-- The transaction of a call, which then answers. -/
  | commit (env : CallEnv P) (position : Nat)

/-- What the statements of a step meet. -/
def ProfileStep.env : ProfileStep P → CallEnv P
  | .check env _ | .commit env _ => env

namespace ProfileRun

open ServerDb

/-- The profile which was stored last counts as decided. -/
def start (username : UserName) (db : ServerDb P) : ProfileRun P :=
  ⟨db, [], (db.userProfiles.lookup username).toList⟩

/-- The calls of `profile_set` for a user. -/
def machine (username : UserName) : Machine (ProfileRun P) (ProfileStep P) where
  step state
    | .check env profile =>
        match state.db.checkProfile env username profile with
        | .error _ => some state
        | .ok () => some { state with pending := state.pending ++ [profile] }
    | .commit env position =>
        match state.pending[position]? with
        | none => none
        | some profile =>
            some ⟨(state.db.commitProfile env username profile).1, state.pending.eraseIdx position,
              if env.dbFails then state.decided else state.decided ++ [profile]⟩

/-- When a profile was made, as a number. -/
def stamp (profile : UserProfile P) : Nat := profile.created.toNat

variable {username : UserName} {state next : ProfileRun P} {step : ProfileStep P}

/-- What a transaction makes of the stored profile. -/
theorem holdsNewest_commit {env : CallEnv P} {profile : UserProfile P} {db : ServerDb P}
    {decided : List (UserProfile P)}
    (before : HoldsNewest stamp (db.userProfiles.lookup username) decided) :
    HoldsNewest stamp ((db.commitProfile env username profile).1.userProfiles.lookup username)
      (if env.dbFails then decided else decided ++ [profile]) := by
  rw [commitProfile]
  cases env.dbFails with
  | true => exact before
  | false =>
      simp only [Bool.false_eq_true, if_false]
      cases found : db.userProfiles.lookup username with
      | none =>
          rw [found] at before
          rw [if_neg Bool.false_ne_true, AList.lookup_insert]
          exact (holdsNewest_write_iff before).mpr fun kept holds => by cases holds
      | some previous =>
          rw [found] at before
          by_cases old : profile.created ≤ previous.created
          · simp only [old, decide_true, if_true, found]
            exact (holdsNewest_refuse_iff before).mpr
              ⟨previous, rfl, UInt64.le_iff_toNat_le.mp old⟩
          · simp only [old, decide_false, Bool.false_eq_true, if_false, AList.lookup_insert]
            refine (holdsNewest_write_iff before).mpr fun kept holds => ?_
            cases holds
            exact Nat.le_of_not_le fun reversed => old (UInt64.le_iff_toNat_le.mpr reversed)

/-- Every step keeps the newest of the decided profiles. -/
theorem holdsNewest_step
    (before : HoldsNewest stamp (state.db.userProfiles.lookup username) state.decided)
    (taken : (machine username).step state step = some next) :
    HoldsNewest stamp (next.db.userProfiles.lookup username) next.decided := by
  cases step with
  | check env profile =>
      simp only [machine] at taken
      split at taken <;> cases taken <;> exact before
  | commit env position =>
      simp only [machine] at taken
      split at taken
      · cases taken
      · cases taken
        exact holdsNewest_commit before

/-- The devices are the same throughout. -/
theorem deviceCertificates_step (taken : (machine username).step state step = some next) :
    next.db.deviceCertificates = state.db.deviceCertificates := by
  cases step with
  | check env profile =>
      simp only [machine] at taken
      split at taken <;> cases taken <;> rfl
  | commit env position =>
      simp only [machine] at taken
      split at taken
      · cases taken
      · cases taken
        obtain ⟨profiles, same⟩ := commitProfile_frame env username _ state.db
        dsimp only
        rw [same]

/-- The profile was stored from the start, or it was submitted and passes the checks. -/
def Submitted (username : UserName) (db : ServerDb P) (steps : List (ProfileStep P))
    (profile : UserProfile P) : Prop :=
  db.userProfiles.lookup username = some profile ∨
    (∃ env, ProfileStep.check env profile ∈ steps) ∧
      db.signedByDevice username profile = true ∧ fitsI64 profile.created = true

/-- What a step which meets no failure does to the calls on their way. -/
theorem tracked_step (works : step.env.dbFails = false)
    (taken : (machine username).step state step = some next) (profile : UserProfile P) :
    (profile ∈ next.decided ∨ profile ∈ next.pending) ↔
      (profile ∈ state.decided ∨ profile ∈ state.pending) ∨
        (∃ env, step = .check env profile) ∧ state.db.signedByDevice username profile = true ∧
          fitsI64 profile.created = true := by
  cases step with
  | check env submitted =>
      have works : env.dbFails = false := works
      have passes := @checkProfile_ok P env username submitted state.db
      rw [works] at passes
      simp only [machine] at taken
      split at taken <;> rename_i checked
      · rw [checked] at passes
        cases taken
        constructor
        · exact .inl
        · rintro (known | ⟨⟨other, same⟩, signed, fits⟩)
          · exact known
          · cases same
            have refused := passes.mpr ⟨rfl, signed, fits⟩
            cases refused
      · rw [checked] at passes
        obtain ⟨-, signed, fits⟩ := passes.mp rfl
        cases taken
        simp only [List.mem_append, List.mem_singleton]
        constructor
        · rintro (known | known | rfl)
          · exact .inl (.inl known)
          · exact .inl (.inr known)
          · exact .inr ⟨⟨env, rfl⟩, signed, fits⟩
        · rintro ((known | known) | ⟨⟨other, same⟩, -⟩)
          · exact .inl known
          · exact .inr (.inl known)
          · cases same
            exact .inr (.inr rfl)
  | commit env position =>
      simp only [machine] at taken
      split at taken
      · cases taken
      · rename_i held found
        cases taken
        have works : env.dbFails = false := works
        obtain ⟨within, rfl⟩ := List.getElem?_eq_some_iff.mp found
        have moved := (List.getElem_cons_eraseIdx_perm within).mem_iff (a := profile)
        simp only [works, Bool.false_eq_true, if_false, List.mem_append, List.mem_singleton,
          reduceCtorEq, exists_false, false_and, or_false]
        rw [← moved, List.mem_cons, or_assoc]

/-- Without failures every submitted profile which passes the checks is on its way to a
transaction, or a transaction has decided on it. -/
theorem tracked_run {db : ServerDb P} {steps : List (ProfileStep P)} {final : ProfileRun P}
    (reached : (machine username).exec (start username db) steps = some final)
    (works : ∀ step ∈ steps, step.env.dbFails = false) (profile : UserProfile P) :
    (final.db.deviceCertificates = db.deviceCertificates) ∧
    ((profile ∈ final.decided ∨ profile ∈ final.pending) ↔ Submitted username db steps profile) := by
  induction steps using List.reverseRecOn generalizing final with
  | nil =>
      cases reached
      simp [start, Submitted]
  | append_singleton steps last ih =>
      obtain ⟨state, before, taken⟩ := Machine.exec_snoc.mp reached
      have earlier : ∀ step ∈ steps, step.env.dbFails = false :=
        fun step member => works step (List.mem_append_left _ member)
      obtain ⟨devices, tracked⟩ := ih before earlier
      refine ⟨(deviceCertificates_step taken).trans devices, ?_⟩
      have signed : state.db.signedByDevice username profile =
          db.signedByDevice username profile := by
        rw [signedByDevice, certificatesOf, devices]
        rfl
      rw [tracked_step (works last (by simp)) taken profile, tracked, signed, Submitted, Submitted]
      simp only [List.mem_append, List.mem_singleton]
      constructor
      · rintro ((stored | ⟨⟨env, member⟩, valid⟩) | ⟨⟨env, rfl⟩, valid⟩)
        · exact .inl stored
        · exact .inr ⟨⟨env, .inl member⟩, valid⟩
        · exact .inr ⟨⟨env, .inr rfl⟩, valid⟩
      · rintro (stored | ⟨⟨env, member | rfl⟩, valid⟩)
        · exact .inl (.inl stored)
        · exact .inl (.inr ⟨⟨env, member⟩, valid⟩)
        · exact .inr ⟨⟨env, rfl⟩, valid⟩

/-- However the submissions run side by side, the newest of the profiles on which a transaction
has decided is stored and returned, and without failures these are the submitted ones. A
profile which is not newer than the stored one is refused and changes nothing. -/
theorem profileGet_newest {db : ServerDb P} {steps : List (ProfileStep P)} {final : ProfileRun P}
    (reached : (machine username).exec (start username db) steps = some final)
    (distinct : ∀ first ∈ final.decided, ∀ second ∈ final.decided,
      first.created = second.created → first = second) :
    (∀ newest ∈ final.decided, (∀ other ∈ final.decided, other.created ≤ newest.created) →
      final.db.userProfiles.lookup username = some newest ∧
        ∀ env, env.dbFails = false → final.db.profileGet env username = .ok (some newest)) ∧
    ((∀ step ∈ steps, step.env.dbFails = false) → final.pending = [] →
      ∀ profile, profile ∈ final.decided ↔ Submitted username db steps profile) ∧
    ∀ (env : CallEnv P) (now : ServerDb P) (profile stored : UserProfile P),
      now.userProfiles.lookup username = some stored → profile.created ≤ stored.created →
        (∃ err, now.profileSet env username profile = (now, .error err)) ∧
          ∃ err, now.commitProfile env username profile = (now, .error err) := by
  refine ⟨?_, ?_, ?_⟩
  · intro newest member greatest
    have holds : HoldsNewest stamp (final.db.userProfiles.lookup username) final.decided :=
      (Machine.always_of_step holdsNewest_step steps (holdsNewest_toList _)).last reached
    have stored : final.db.userProfiles.lookup username = some newest := by
      refine holds.eq_some ?_ member fun other listed =>
        UInt64.le_iff_toNat_le.mp (greatest other listed)
      intro first listed second also same
      exact distinct first listed second also (UInt64.toNat_inj.mp same)
    refine ⟨stored, fun env works => ?_⟩
    rw [profileGet, works, stored]
    rfl
  · intro works settled profile
    have tracked := (tracked_run reached works profile).2
    rwa [settled, or_iff_left List.not_mem_nil] at tracked
  · intro env now profile stored found old
    exact ⟨profileSet_stale found old, commitProfile_stale found old⟩

open WatchedServer (envWith registeredDb tokenOf)

/-- What Alice's device signs at a certain second. -/
def aliceProfile (name : String) (created : Timestamp) : UserProfile symbolic :=
  ⟨some name, none, created, 1 :: symbolic.keyedDigest (utf8 "user_profile")
    (Bcs.toBytes (some name, (none : Option (Attachment symbolic)), created))⟩

/-- Both calls pass their checks, and the newer one is the first to commit. -/
def overtakenRun : List (ProfileStep symbolic) :=
  [.check (envWith (tokenOf 2)) (aliceProfile "a" 5),
    .check (envWith (tokenOf 2)) (aliceProfile "b" 6), .commit (envWith (tokenOf 2)) 1,
    .commit (envWith (tokenOf 2)) 0]

theorem profileGet_newest_overtaken : ∃ final,
    (machine alice).exec (start alice registeredDb) overtakenRun = some final ∧
      final.db.profileGet (envWith (tokenOf 2)) alice = .ok (some (aliceProfile "b" 6)) := by
  have ends : ((machine alice).exec (start alice registeredDb) overtakenRun).map
      ProfileRun.decided = some [aliceProfile "b" 6, aliceProfile "a" 5] := by decide +kernel
  obtain ⟨final, reached, decided⟩ := Option.map_eq_some_iff.mp ends
  refine ⟨final, reached, ?_⟩
  have distinct : ∀ first ∈ final.decided, ∀ second ∈ final.decided,
      first.created = second.created → first = second := by
    rw [decided]
    decide
  have greatest : ∀ other ∈ final.decided, other.created ≤ (aliceProfile "b" 6).created := by
    rw [decided]
    decide
  have member : aliceProfile "b" 6 ∈ final.decided := by
    rw [decided]
    exact List.mem_cons_self
  exact ((profileGet_newest reached distinct).1 _ member greatest).2 _ rfl

end ProfileRun
end Nullspace
