import Mathlib.Order.Basic
import Nullspace.Server.TokenSecrecy

/-!
# What an edit of an ACL does to everybody's rights

A token has the rights of its own row, or else those of the anonymous row, so one row may
shadow another and its removal uncovers what is below. `mailboxAclEdit_cases` is all an
edit can do to the rows. `keepsOthers_iff` says when the edits of callers who may not edit
leave the others their rights, and `edits_confined` that a coalition without an editor
never gets beyond the rights it started with.
-/

namespace Nullspace

open Nullspace.Base

variable {P : Primitives}

/-- A right on a mailbox. -/
inductive Right where
  | editAcl
  | send
  | recv
deriving DecidableEq

namespace AclRights

def grants (rights : AclRights) : Right → Bool
  | .editAcl => rights.canEditAcl
  | .send => rights.canSend
  | .recv => rights.canRecv

/-- Rights are told apart by what they grant. -/
theorem grants_injective : Function.Injective grants := by
  intro first second same
  have edit := congrFun same .editAcl
  have send := congrFun same .send
  have recv := congrFun same .recv
  cases first
  cases second
  simp only [grants] at edit send recv
  rw [edit, send, recv]

/-- Rights are ordered by what they grant. -/
instance : PartialOrder AclRights where
  le first second := ∀ right, first.grants right = true → second.grants right = true
  le_refl _ _ held := held
  le_trans _ _ _ before after right held := after right (before right held)
  le_antisymm _ _ before after :=
    grants_injective (funext fun right => Bool.eq_iff_iff.mpr ⟨before right, after right⟩)

/-- Rights are below others when these grant all of them. -/
theorem le_iff {first second : AclRights} :
    first ≤ second ↔ ∀ right, first.grants right = true → second.grants right = true := Iff.rfl

/-- No rights, as a token has without a row. -/
def empty : AclRights := ⟨false, false, false⟩

/-- Without rights nothing is granted. -/
theorem empty_grants (right : Right) : empty.grants right = false := by
  cases right <;> rfl

/-- Whoever has no right has no more than anybody. -/
theorem empty_le (rights : AclRights) : empty ≤ rights := by
  intro right held
  rw [empty_grants] at held
  exact absurd held Bool.false_ne_true

end AclRights

namespace ServerDb

/-- The code's comparison is the order of rights. -/
theorem aclIsSubset_iff {candidate holder : AclRights} :
    aclIsSubset candidate holder = true ↔ candidate ≤ holder := by
  rw [aclIsSubset, AclRights.le_iff]
  constructor
  · intro subset right held
    cases right <;> simp only [AclRights.grants] at held ⊢ <;> simp_all
  · intro within
    have edit := within .editAcl
    have send := within .send
    have recv := within .recv
    simp only [AclRights.grants] at edit send recv
    simp only [Bool.and_eq_true, Bool.or_eq_true, Bool.not_eq_true']
    refine ⟨⟨?_, ?_⟩, ?_⟩
    · cases held : candidate.canEditAcl
      · exact Or.inl rfl
      · exact Or.inr (edit held)
    · cases held : candidate.canSend
      · exact Or.inl rfl
      · exact Or.inr (send held)
    · cases held : candidate.canRecv
      · exact Or.inl rfl
      · exact Or.inr (recv held)

/-- The code's test for emptiness holds of no rights only. -/
theorem aclIsEmpty_iff {candidate : AclRights} :
    aclIsEmpty candidate = true ↔ candidate = .empty := by
  obtain ⟨edit, send, recv⟩ := candidate
  cases edit <;> cases send <;> cases recv <;> decide

/-- The rights of a token are those of its own row, of the anonymous row, or none. -/
theorem aclForToken_eq (db : ServerDb P) (mailbox : MailboxId P) (token : AuthToken) :
    db.aclForToken mailbox token =
      ((db.loadAclHash mailbox (P.bcsHash token)).or
        (db.loadAclHash mailbox (P.bcsHash AuthToken.anonymous))).getD .empty := by
  rw [aclForToken]
  cases db.loadAclHash mailbox (P.bcsHash token) with
  | some rights => rfl
  | none => cases db.loadAclHash mailbox (P.bcsHash AuthToken.anonymous) <;> rfl

/-- A token with a row of its own has the rights of this row. -/
theorem aclForToken_own {db : ServerDb P} {mailbox : MailboxId P} {token : AuthToken}
    {rights : AclRights} (own : db.loadAclHash mailbox (P.bcsHash token) = some rights) :
    db.aclForToken mailbox token = rights := by
  rw [aclForToken_eq, own]
  rfl

/-- Without a row of its own, a token has the rights of the anonymous token. -/
theorem aclForToken_anonymous {db : ServerDb P} {mailbox : MailboxId P} {token : AuthToken}
    (own : db.loadAclHash mailbox (P.bcsHash token) = none) :
    db.aclForToken mailbox token = db.aclForToken mailbox .anonymous := by
  rw [aclForToken_eq, aclForToken_eq, own, Option.none_or, Option.or_self]

/-- The table with one row more. -/
def withAcl (db : ServerDb P) (mailbox : MailboxId P) (acl : MailboxAcl P) : ServerDb P :=
  { db with mailboxAcl := db.mailboxAcl.insert (mailbox, acl.tokenHash) acl.rights }

/-- A row is inserted into a mailbox which exists. -/
theorem insertAcl_eq_some {db next : ServerDb P} {mailbox : MailboxId P} {acl : MailboxAcl P} :
    db.insertAcl mailbox acl = some next ↔ mailbox ∈ db.mailboxes ∧ next = db.withAcl mailbox acl := by
  rw [insertAcl]
  by_cases known : mailbox ∈ db.mailboxes
  · rw [if_pos known, Option.some.injEq]
    exact ⟨fun same => ⟨known, same.symm⟩, fun held => held.2.symm⟩
  · simp [known]

/-- A row which is written replaces the one of the same token. -/
theorem loadAclHash_withAcl (db : ServerDb P) (mailbox other : MailboxId P) (acl : MailboxAcl P)
    (tokenHash : P.Hash) :
    (db.withAcl mailbox acl).loadAclHash other tokenHash =
      if other = mailbox ∧ tokenHash = acl.tokenHash then some acl.rights
      else db.loadAclHash other tokenHash := by
  rw [loadAclHash, withAcl, Table.lookup_insert_eq]
  simp only [Prod.mk.injEq]
  rfl

/-- A row which is deleted is the only one which goes. -/
theorem loadAclHash_deleteAcl (db : ServerDb P) (mailbox other : MailboxId P)
    (removed tokenHash : P.Hash) :
    (db.deleteAcl mailbox removed).loadAclHash other tokenHash =
      if other = mailbox ∧ tokenHash = removed then none
      else db.loadAclHash other tokenHash := by
  rw [loadAclHash, deleteAcl]
  by_cases same : other = mailbox ∧ tokenHash = removed
  · rw [if_pos same, same.1, same.2]
    exact AList.lookup_erase _ _
  · rw [if_neg same]
    exact AList.lookup_erase_ne fun equal => same (Prod.mk.inj equal)

/-- The caller gives up its own row. -/
def Removes (env : CallEnv P) (auth : AuthToken) (arg : MailboxAcl P) : Prop :=
  env.dbFails = false ∧ arg.tokenHash = P.bcsHash auth ∧ arg.rights = .empty

/-- The edit writes a row: as an editor's, or as a new row within the caller's rights. -/
def Writes (db : ServerDb P) (env : CallEnv P) (auth : AuthToken) (mailbox : MailboxId P)
    (arg : MailboxAcl P) : Prop :=
  env.dbFails = false ∧ mailbox ∈ db.mailboxes ∧ ¬Removes env auth arg ∧
    db.loadAclHash mailbox arg.tokenHash ≠ some arg.rights ∧
      ((db.aclForToken mailbox auth).canEditAcl = true ∨
        db.loadAclHash mailbox arg.tokenHash = none ∧ arg.rights ≤ db.aclForToken mailbox auth)

/-- An edit removes the caller's own row, writes a row, or does nothing. -/
theorem mailboxAclEdit_cases (db : ServerDb P) (env : CallEnv P) (auth : AuthToken)
    (mailbox : MailboxId P) (arg : MailboxAcl P) :
    (Removes env auth arg ∧
        (db.mailboxAclEdit env auth mailbox arg).1 = db.deleteAcl mailbox arg.tokenHash) ∨
      (db.Writes env auth mailbox arg ∧
        (db.mailboxAclEdit env auth mailbox arg).1 = db.withAcl mailbox arg) ∨
      (¬Removes env auth arg ∧ ¬db.Writes env auth mailbox arg ∧
        (db.mailboxAclEdit env auth mailbox arg).1 = db) := by
  by_cases fails : env.dbFails = true
  · refine Or.inr (Or.inr ⟨?_, ?_, ?_⟩)
    · intro removes
      simp [removes.1] at fails
    · intro writes
      simp [writes.1] at fails
    · simp [mailboxAclEdit, fails]
  rw [Bool.not_eq_true] at fails
  by_cases gives : arg.tokenHash = P.bcsHash auth ∧ aclIsEmpty arg.rights = true
  · refine Or.inl ⟨⟨fails, gives.1, aclIsEmpty_iff.mp gives.2⟩, ?_⟩
    simp [mailboxAclEdit, fails, gives]
  have keeps : ¬Removes env auth arg :=
    fun removes => gives ⟨removes.2.1, aclIsEmpty_iff.mpr removes.2.2⟩
  refine Or.inr ?_
  simp only [mailboxAclEdit, fails, Bool.false_eq_true, if_false, if_neg gives]
  by_cases same : db.loadAclHash mailbox arg.tokenHash = some arg.rights
  · refine Or.inr ⟨keeps, fun writes => writes.2.2.2.1 same, ?_⟩
    rw [if_pos same]
  rw [if_neg same]
  by_cases allowed : (db.aclForToken mailbox auth).canEditAcl = true ∨
      db.loadAclHash mailbox arg.tokenHash = none ∧ arg.rights ≤ db.aclForToken mailbox auth
  · have passes : ¬(!(db.aclForToken mailbox auth).canEditAcl &&
        !((db.loadAclHash mailbox arg.tokenHash).isNone &&
          aclIsSubset arg.rights (db.aclForToken mailbox auth))) = true := by
      rcases allowed with editor | ⟨absent, within⟩
      · simp [editor]
      · simp [absent, aclIsSubset_iff.mpr within]
    rw [if_neg passes]
    by_cases known : mailbox ∈ db.mailboxes
    · rw [insertAcl_eq_some.mpr ⟨known, rfl⟩]
      exact Or.inl ⟨⟨fails, known, keeps, same, allowed⟩, rfl⟩
    · have refused : db.insertAcl mailbox arg = none := by simp [insertAcl, known]
      rw [refused]
      exact Or.inr ⟨keeps, fun writes => known writes.2.1, rfl⟩
  · have denied : (!(db.aclForToken mailbox auth).canEditAcl &&
        !((db.loadAclHash mailbox arg.tokenHash).isNone &&
          aclIsSubset arg.rights (db.aclForToken mailbox auth))) = true := by
      rw [not_or, Bool.not_eq_true, not_and] at allowed
      simp only [allowed.1, Bool.not_false, Bool.true_and, Bool.not_eq_true', Bool.and_eq_false_iff]
      by_cases absent : db.loadAclHash mailbox arg.tokenHash = none
      · right
        rw [← Bool.not_eq_true, aclIsSubset_iff]
        exact allowed.2 absent
      · left
        rw [Option.isNone_eq_false_iff, Option.isSome_iff_ne_none]
        exact absent
    rw [if_pos denied]
    exact Or.inr ⟨keeps, fun writes => allowed writes.2.2.2.2, rfl⟩

/-- The server as a machine over calls and what they meet. -/
def machine (config : ServerConfig) : Machine (ServerDb P) (CallEnv P × ServerRequest P) where
  step db call := some (db.handle config call.1 call.2).1

/-- Whose rights count as somebody else's: the anonymous token is nobody's own. -/
def Others (auth token : AuthToken) : Prop := token ≠ auth ∨ auth = .anonymous

/-- An edit by a caller who may not edit takes no right away from anybody else. -/
def KeepsOthers (config : ServerConfig) (db : ServerDb P) (call : CallEnv P × ServerRequest P) :
    Prop :=
  ∀ auth mailbox arg, call.2 = .mailboxAclEdit auth mailbox arg →
    (db.aclForToken mailbox auth).canEditAcl = false → ∀ token, Others auth token →
      db.aclForToken mailbox token ≤
        (db.handle config call.1 call.2).1.aclForToken mailbox token

/-- An edit by a caller who may not edit names nobody else, or grants all that the named
token has, or does nothing. -/
def Careful (db : ServerDb P) (call : CallEnv P × ServerRequest P) : Prop :=
  ∀ auth mailbox arg, call.2 = .mailboxAclEdit auth mailbox arg →
    (db.aclForToken mailbox auth).canEditAcl = false → ∀ token, Others auth token →
      P.bcsHash token = arg.tokenHash →
        Removes call.1 auth arg ∨ db.Writes call.1 auth mailbox arg →
          db.aclForToken mailbox token ≤ arg.rights

/-- Giving up a row leaves the others their rights when the row was the caller's own. -/
theorem removes_keeps (free : P.CollisionFree) {db : ServerDb P} {env : CallEnv P}
    {auth : AuthToken} {mailbox : MailboxId P} {arg : MailboxAcl P} (removes : Removes env auth arg) :
    (∀ token, Others auth token →
        db.aclForToken mailbox token ≤ (db.deleteAcl mailbox arg.tokenHash).aclForToken mailbox token) ↔
      ∀ token, Others auth token → P.bcsHash token = arg.tokenHash →
        db.aclForToken mailbox token ≤ arg.rights := by
  obtain ⟨_, own, empty⟩ := removes
  constructor
  · intro keeps token other named
    obtain rfl := free.bcsHash_inj.mp (named.trans own)
    obtain rfl := other.resolve_left fun apart => apart rfl
    have after : (db.deleteAcl mailbox arg.tokenHash).aclForToken mailbox .anonymous = .empty := by
      rw [aclForToken_eq, loadAclHash_deleteAcl, if_pos ⟨rfl, named⟩]
      rfl
    rw [empty, ← after]
    exact keeps .anonymous other
  · intro careful token other
    by_cases named : P.bcsHash token = arg.tokenHash
    · rw [empty] at careful
      exact (careful token other named).trans (AclRights.empty_le _)
    · by_cases shared : P.bcsHash AuthToken.anonymous = arg.tokenHash
      · -- only the anonymous token names the anonymous row as its own
        obtain rfl := free.bcsHash_inj.mp (shared.trans own)
        cases row : db.loadAclHash mailbox (P.bcsHash token) with
        | some rights =>
            have after := loadAclHash_deleteAcl db mailbox mailbox arg.tokenHash (P.bcsHash token)
            rw [if_neg fun same => named same.2, row] at after
            rw [aclForToken_own row, aclForToken_own after]
        | none =>
            rw [aclForToken_anonymous row]
            have bare := careful .anonymous (Or.inr rfl) shared
            rw [empty] at bare
            exact bare.trans (AclRights.empty_le _)
      · rw [aclForToken_eq, aclForToken_eq, loadAclHash_deleteAcl, loadAclHash_deleteAcl,
          if_neg fun same => named same.2, if_neg fun same => shared same.2]

/-- A new row within the caller's rights leaves the others theirs when it does not shadow
rights which the named token has from the anonymous row. -/
theorem writes_keeps {db : ServerDb P} {auth : AuthToken} {mailbox : MailboxId P}
    {arg : MailboxAcl P} (absent : db.loadAclHash mailbox arg.tokenHash = none) :
    (∀ token, Others auth token →
        db.aclForToken mailbox token ≤ (db.withAcl mailbox arg).aclForToken mailbox token) ↔
      ∀ token, Others auth token → P.bcsHash token = arg.tokenHash →
        db.aclForToken mailbox token ≤ arg.rights := by
  have after : ∀ token, P.bcsHash token = arg.tokenHash →
      (db.withAcl mailbox arg).aclForToken mailbox token = arg.rights := by
    intro token named
    apply aclForToken_own
    rw [loadAclHash_withAcl, if_pos ⟨rfl, named⟩]
  constructor
  · intro keeps token other named
    rw [← after token named]
    exact keeps token other
  · intro careful token other
    by_cases named : P.bcsHash token = arg.tokenHash
    · rw [after token named]
      exact careful token other named
    · by_cases shared : P.bcsHash AuthToken.anonymous = arg.tokenHash
      · cases row : db.loadAclHash mailbox (P.bcsHash token) with
        | some rights =>
            have kept := loadAclHash_withAcl db mailbox mailbox arg (P.bcsHash token)
            rw [if_neg fun same => named same.2, row] at kept
            rw [aclForToken_own row, aclForToken_own kept]
        | none =>
            -- there was no anonymous row to lose
            rw [aclForToken_eq, row, shared, absent]
            exact AclRights.empty_le _
      · rw [aclForToken_eq, aclForToken_eq, loadAclHash_withAcl, loadAclHash_withAcl,
          if_neg fun same => named same.2, if_neg fun same => shared same.2]

/-- One edit takes nothing from others exactly when it is careful. -/
theorem keepsOthers_step (free : P.CollisionFree) (config : ServerConfig) (db : ServerDb P)
    (call : CallEnv P × ServerRequest P) : KeepsOthers config db call ↔ Careful db call := by
  obtain ⟨env, request⟩ := call
  refine forall_congr' fun auth => forall_congr' fun mailbox => forall_congr' fun arg => ?_
  refine forall_congr' fun edit => forall_congr' fun mayNot => ?_
  have request_eq : request = .mailboxAclEdit auth mailbox arg := edit
  subst request_eq
  simp only [handle]
  rcases mailboxAclEdit_cases db env auth mailbox arg with
    ⟨removes, outcome⟩ | ⟨writes, outcome⟩ | ⟨keeps, idle, outcome⟩
  · rw [outcome, removes_keeps free removes]
    simp only [removes, true_or, true_imp_iff]
  · have absent : db.loadAclHash mailbox arg.tokenHash = none := by
      rcases writes.2.2.2.2 with editor | ⟨absent, _⟩
      · rw [mayNot] at editor
        exact absurd editor Bool.false_ne_true
      · exact absent
    rw [outcome, writes_keeps absent]
    simp only [writes, or_true, true_imp_iff]
  · rw [outcome]
    simp [keeps, idle]

/-- Nobody who may not edit takes rights away from others, exactly in the runs in which
the edits of such callers are all careful. -/
theorem keepsOthers_iff (free : P.CollisionFree) (config : ServerConfig) (start : ServerDb P)
    (calls : List (CallEnv P × ServerRequest P)) :
    (machine config).Along (KeepsOthers config) start calls ↔
      (machine config).Along Careful start calls := by
  refine forall_congr' fun before => forall_congr' fun call => forall_congr' fun _ => ?_
  refine forall_congr' fun state => forall_congr' fun next => ?_
  refine forall_congr' fun _ => forall_congr' fun _ => ?_
  exact keepsOthers_step free config state call

/-- Alice's device authenticates, so that everyone may send to her. -/
def aliceListed : CallEnv symbolic × ServerRequest symbolic :=
  (WatchedServer.envWith (WatchedServer.tokenOf 1), .deviceAuth alice WatchedServer.aliceChain)

/-- Somebody gives up the anonymous row of Alice's mailbox. -/
def anonymousLeaves : CallEnv symbolic × ServerRequest symbolic :=
  (WatchedServer.envWith (WatchedServer.tokenOf 2), .mailboxAclEdit .anonymous
    (MailboxId.direct alice) ⟨symbolic.bcsHash AuthToken.anonymous, .empty⟩)

theorem keepsOthers_iff_aliceListed :
    (machine WatchedServer.exampleServer).Along (KeepsOthers WatchedServer.exampleServer) .empty
        [aliceListed, anonymousLeaves] ↔
      (machine WatchedServer.exampleServer).Along Careful .empty [aliceListed, anonymousLeaves] :=
  keepsOthers_iff symbolic_collisionFree _ _ _

/-- Giving up the anonymous row takes a right away from everybody else. -/
theorem anonymousLeaves_breaks :
    ¬(machine WatchedServer.exampleServer).Along (KeepsOthers WatchedServer.exampleServer) .empty
      [aliceListed, anonymousLeaves] := by
  intro along
  have rights : ((machine WatchedServer.exampleServer).exec .empty [aliceListed]).map (fun db =>
      (db.aclForToken (MailboxId.direct alice) .anonymous,
        (db.handle WatchedServer.exampleServer anonymousLeaves.1 anonymousLeaves.2).1.aclForToken
          (MailboxId.direct alice) .anonymous)) =
      some (⟨false, true, false⟩, .empty) := by decide +kernel
  obtain ⟨db, reached, held⟩ := Option.map_eq_some_iff.mp rights
  obtain ⟨before, after⟩ := Prod.mk.inj held
  have keeps := along [aliceListed] anonymousLeaves (List.prefix_refl _) db _ reached rfl
  have kept := keeps .anonymous (MailboxId.direct alice) _ rfl (by rw [before]) .anonymous
    (Or.inr rfl)
  rw [before, after] at kept
  exact absurd (kept .send rfl) Bool.false_ne_true

/-- One call of `mailbox_acl_edit`. -/
structure AclEdit (P : Primitives) where
  env : CallEnv P
  auth : AuthToken
  mailbox : MailboxId P
  arg : MailboxAcl P

/-- Edits one after another. -/
def edits (db : ServerDb P) (calls : List (AclEdit P)) : ServerDb P :=
  calls.foldl (fun db call => (db.mailboxAclEdit call.env call.auth call.mailbox call.arg).1) db

/-- Every row of the mailbox was there at the start, or grants what some member had then. -/
def Confined (start : ServerDb P) (members : AuthToken → Prop) (mailbox : MailboxId P)
    (db : ServerDb P) : Prop :=
  ∀ tokenHash rights, db.loadAclHash mailbox tokenHash = some rights →
    start.loadAclHash mailbox tokenHash = some rights ∨
      ∀ right, rights.grants right = true →
        ∃ member, members member ∧ (start.aclForToken mailbox member).grants right = true

/-- Within confined rows, a token has what it had or what some member had. -/
theorem Confined.effective {start db : ServerDb P} {members : AuthToken → Prop}
    {mailbox : MailboxId P} (anonymous : members .anonymous)
    (confined : Confined start members mailbox db) {token : AuthToken} {right : Right}
    (held : (db.aclForToken mailbox token).grants right = true) :
    (start.aclForToken mailbox token).grants right = true ∨
      ∃ member, members member ∧ (start.aclForToken mailbox member).grants right = true := by
  cases own : db.loadAclHash mailbox (P.bcsHash token) with
  | some rights =>
      rw [aclForToken_own own] at held
      rcases confined _ rights own with was | shared
      · left
        rwa [aclForToken_own was]
      · exact Or.inr (shared right held)
  | none =>
      rw [aclForToken_anonymous own] at held
      cases row : db.loadAclHash mailbox (P.bcsHash AuthToken.anonymous) with
      | some rights =>
          rw [aclForToken_own row] at held
          rcases confined _ rights row with was | shared
          · exact Or.inr ⟨.anonymous, anonymous, by rwa [aclForToken_own was]⟩
          · exact Or.inr (shared right held)
      | none =>
          rw [aclForToken_eq, row] at held
          simp [AclRights.empty_grants] at held

/-- An edit by a member keeps the rows confined. -/
theorem Confined.step {start db : ServerDb P} {members : AuthToken → Prop}
    {mailbox : MailboxId P} (anonymous : members .anonymous)
    (noEditor : ∀ member, members member → (start.aclForToken mailbox member).canEditAcl = false)
    (confined : Confined start members mailbox db) {call : AclEdit P} (member : members call.auth) :
    Confined start members mailbox
      (db.mailboxAclEdit call.env call.auth call.mailbox call.arg).1 := by
  have within : ∀ right, (db.aclForToken mailbox call.auth).grants right = true →
      ∃ member, members member ∧ (start.aclForToken mailbox member).grants right = true := by
    intro right held
    rcases confined.effective anonymous held with own | shared
    · exact ⟨call.auth, member, own⟩
    · exact shared
  rcases mailboxAclEdit_cases db call.env call.auth call.mailbox call.arg with
    ⟨_, outcome⟩ | ⟨writes, outcome⟩ | ⟨_, _, outcome⟩
  · rw [outcome]
    intro tokenHash rights row
    rw [loadAclHash_deleteAcl] at row
    split at row
    · cases row
    · exact confined tokenHash rights row
  · rw [outcome]
    intro tokenHash rights row
    rw [loadAclHash_withAcl] at row
    split at row
    · rename_i written
      obtain ⟨rfl, rfl⟩ := written
      cases row
      right
      rcases writes.2.2.2.2 with editor | ⟨_, shares⟩
      · obtain ⟨other, listed, edits⟩ := within .editAcl editor
        have mayNot := noEditor other listed
        rw [AclRights.grants, mayNot] at edits
        exact absurd edits Bool.false_ne_true
      · intro right held
        exact within right (shares right held)
    · exact confined tokenHash rights row
  · rw [outcome]
    exact confined

/-- Edits by members who may not edit keep every row confined. -/
theorem Confined.run {start db : ServerDb P} {members : AuthToken → Prop}
    {mailbox : MailboxId P} (anonymous : members .anonymous)
    (noEditor : ∀ member, members member → (start.aclForToken mailbox member).canEditAcl = false)
    (confined : Confined start members mailbox db) {calls : List (AclEdit P)}
    (byMembers : ∀ call ∈ calls, members call.auth) :
    Confined start members mailbox (db.edits calls) := by
  induction calls generalizing db with
  | nil => exact confined
  | cons call rest ih =>
      have first := confined.step anonymous noEditor (byMembers call List.mem_cons_self)
      exact ih first fun other listed => byMembers other (List.mem_cons_of_mem call listed)

/-- Members of a coalition without an editor never give anybody more than that token or
some member had at the start, and nobody becomes an editor. -/
theorem edits_confined (db : ServerDb P) (mailbox : MailboxId P) (members : AuthToken → Prop)
    (anonymous : members .anonymous)
    (noEditor : ∀ member, members member → (db.aclForToken mailbox member).canEditAcl = false)
    (calls : List (AclEdit P)) (byMembers : ∀ call ∈ calls, members call.auth) :
    ∀ token,
      (∀ right, ((db.edits calls).aclForToken mailbox token).grants right = true →
        (db.aclForToken mailbox token).grants right = true ∨
          ∃ member, members member ∧ (db.aclForToken mailbox member).grants right = true) ∧
      (((db.edits calls).aclForToken mailbox token).canEditAcl = true →
        (db.aclForToken mailbox token).canEditAcl = true) := by
  have start : Confined db members mailbox db := fun _ _ row => Or.inl row
  have confined := start.run anonymous noEditor byMembers
  intro token
  refine ⟨fun right held => confined.effective anonymous held, ?_⟩
  intro editor
  have held : ((db.edits calls).aclForToken mailbox token).grants .editAcl = true := editor
  rcases confined.effective anonymous held with own | ⟨member, listed, edits⟩
  · exact own
  · have mayNot := noEditor member listed
    rw [AclRights.grants, mayNot] at edits
    exact absurd edits Bool.false_ne_true

/-- The server after Alice's device has authenticated. -/
def aliceDb : ServerDb symbolic :=
  (ServerDb.empty.handle WatchedServer.exampleServer aliceListed.1 aliceListed.2).1

/-- Somebody without a token gives another token the right which everybody has. -/
def sharedSend : AclEdit symbolic :=
  ⟨WatchedServer.envWith (WatchedServer.tokenOf 2), .anonymous, MailboxId.direct alice,
    ⟨symbolic.bcsHash (WatchedServer.tokenOf 3), ⟨false, true, false⟩⟩⟩

theorem edits_confined_sharedSend :
    (∀ right, ((aliceDb.edits [sharedSend]).aclForToken (MailboxId.direct alice)
          (WatchedServer.tokenOf 3)).grants right = true →
        (aliceDb.aclForToken (MailboxId.direct alice) (WatchedServer.tokenOf 3)).grants right = true ∨
          ∃ member, member = AuthToken.anonymous ∧
            (aliceDb.aclForToken (MailboxId.direct alice) member).grants right = true) ∧
      (((aliceDb.edits [sharedSend]).aclForToken (MailboxId.direct alice)
          (WatchedServer.tokenOf 3)).canEditAcl = true →
        (aliceDb.aclForToken (MailboxId.direct alice) (WatchedServer.tokenOf 3)).canEditAcl = true) :=
  edits_confined aliceDb (MailboxId.direct alice) (fun member => member = .anonymous) rfl
    (by rintro member rfl; decide +kernel) [sharedSend]
    (by simp [sharedSend]) (WatchedServer.tokenOf 3)

end ServerDb
end Nullspace
