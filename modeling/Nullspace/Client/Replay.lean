import Nullspace.Base.Machine
import Nullspace.Client.Rounds

/-!
# Rekeys which are posted again

One member's run over a group's mailboxes, in which anybody may post anything to the
messages mailbox, with any failures. The record `taken` has the rekeys which the member
accepted, each once, by what was signed: a new envelope, or another signature under the
same words, makes no new rekey.

`follows_iff` says when the member's keys are those which `taken` leads to, that is, when
no rekey takes effect twice.
-/

namespace Nullspace

open Nullspace.Base

variable {P : Primitives}

/-- The keys which new keys lead to: each takes the place of the one before. -/
def rotated (initial : AeadKey × AeadKey) (keys : List AeadKey) : AeadKey × AeadKey :=
  keys.foldl (fun pair newKey => (newKey, pair.1)) initial

theorem rotated_snoc (initial : AeadKey × AeadKey) (keys : List AeadKey) (newKey : AeadKey) :
    rotated initial (keys ++ [newKey]) = (newKey, (rotated initial keys).1) := by
  rw [rotated, List.foldl_append]
  rfl

/-- The current key is the last new one. -/
theorem rotated_fst (initial : AeadKey × AeadKey) (keys : List AeadKey) :
    (rotated initial keys).1 = keys.getLast?.getD initial.1 := by
  induction keys using List.reverseRecOn with
  | nil => rfl
  | append_singleton keys newKey _ => simp [rotated_snoc]

/-- A group's row and the rekeys which led to its keys. -/
structure KeyRun (P : Primitives) where
  db : ClientDb P
  /-- The keys at the start. -/
  initial : Option (AeadKey × AeadKey)
  taken : List (Bytes × AeadKey)

inductive KeyEvent (P : Primitives) where
  | messages (env : ClientEnv P) (entry : MailboxEntry P)
  | management (env : ClientEnv P) (entry : MailboxEntry P)
  /-- What the member does besides. -/
  | other (db : ClientDb P)

namespace GroupRecord

/-- The rekey which a round of the messages mailbox accepts. -/
def accepts (env : ClientEnv P) (groupId : GroupId P) (group : GroupRecord P)
    (entry : MailboxEntry P) : Option (DeviceSigned P × AeadKey) :=
  if env.fails .prepare || env.fails .cursor || ClientDb.rekeyFails env group then none
  else if entry.message.kind = Blob.v1GroupRekey then
    env.identity.bind fun identity =>
      ClientDb.rekeyWrite env identity groupId group entry.message
  else none

/-- The keys after a round of the messages mailbox. -/
theorem received_messages_keys (json : JsonReader P) (env : ClientEnv P) (groupId : GroupId P)
    (entry : MailboxEntry P) (group : GroupRecord P) :
    (group.received json env groupId .messages entry).keys =
      match group.accepts env groupId entry with
      | none => group.keys
      | some (_, newKey) => (newKey, group.groupKeyCurrent) := by
  rw [accepts]
  by_cases stops : (env.fails .prepare || env.fails .cursor) = true
  · rw [received, if_pos stops, stops, Bool.true_or]
    rfl
  rw [Bool.not_eq_true] at stops
  obtain ⟨prepares, stores⟩ := Bool.or_eq_false_iff.mp stops
  rw [received_messages json prepares stores, stops, Bool.false_or]
  by_cases rekey : entry.message.kind = Blob.v1GroupRekey
  · rw [if_pos rekey, if_pos rekey, withKeys_keys, ClientDb.rekeyed]
    cases ClientDb.rekeyFails env group with
    | true =>
        simp only [if_true]
        split <;> rfl
    | false => rfl
  · rw [if_neg rekey, if_neg rekey, ite_self]
    rfl

/-- A round of the management mailbox leaves the keys. -/
theorem received_management_keys (json : JsonReader P) (env : ClientEnv P) (groupId : GroupId P)
    (entry : MailboxEntry P) (group : GroupRecord P) :
    (group.received json env groupId .management entry).keys = group.keys := by
  rw [received]
  split
  · rfl
  · split <;> rfl

end GroupRecord

/-- The keys of a group. -/
def ClientDb.groupKeys (db : ClientDb P) (groupId : GroupId P) : Option (AeadKey × AeadKey) :=
  (db.loadedGroup groupId).map GroupRecord.keys

namespace KeyRun

def start (groupId : GroupId P) (db : ClientDb P) : KeyRun P := ⟨db, db.groupKeys groupId, []⟩

/-- The record with a rekey which was accepted. -/
def record (taken : List (Bytes × AeadKey)) :
    Option (DeviceSigned P × AeadKey) → List (Bytes × AeadKey)
  | none => taken
  | some (signed, newKey) =>
      let value := Signable.signedValue signed
      if value ∈ taken.map Prod.fst then taken else taken ++ [(value, newKey)]

/-- A member's run as a machine. -/
def machine (json : JsonReader P) (groupId : GroupId P) : Machine (KeyRun P) (KeyEvent P) where
  step state
    | .messages env entry =>
        match state.db.groups.lookup groupId with
        | none => none
        | some group =>
            some { state with
              db := (state.db.groupRecvOnce json env groupId group .messages entry).1
              taken := record state.taken (group.accepts env groupId entry) }
    | .management env entry =>
        match state.db.groups.lookup groupId with
        | none => none
        | some group =>
            some { state with
              db := (state.db.groupRecvOnce json env groupId group .management entry).1 }
    | .other db =>
        if db.groupKeys groupId = state.db.groupKeys groupId then some { state with db := db }
        else none

/-- The keys are those which the accepted rekeys lead to, each taken once. -/
def Follows (groupId : GroupId P) (state : KeyRun P) : Prop :=
  state.db.groupKeys groupId =
    state.initial.map fun initial => rotated initial (state.taken.map Prod.snd)

/-- An entry which carries a rekey that was accepted before is not accepted again, unless
both keys are its key already. -/
def Unreplayed (groupId : GroupId P) (state : KeyRun P) : KeyEvent P → Prop
  | .messages env entry => ∀ group signed newKey, state.db.groups.lookup groupId = some group →
      group.accepts env groupId entry = some (signed, newKey) →
        Signable.signedValue signed ∈ state.taken.map Prod.fst →
          (newKey, group.groupKeyCurrent) = group.keys
  | _ => True

/-- The keys of a group are those in its row. -/
theorem groupKeys_of_lookup {db : ClientDb P} {groupId : GroupId P} {group : GroupRecord P}
    (listed : db.groups.lookup groupId = some group) :
    db.groupKeys groupId = some group.keys := by
  rw [ClientDb.groupKeys, ClientDb.loadedGroup_of_lookup listed]
  rfl

/-- The keys after a round are those of the received row. -/
theorem groupKeys_round (json : JsonReader P) (env : ClientEnv P) {groupId : GroupId P}
    {group : GroupRecord P} (kind : GroupMailboxKind) (entry : MailboxEntry P) {db : ClientDb P}
    (listed : db.groups.lookup groupId = some group) :
    (db.groupRecvOnce json env groupId group kind entry).1.groupKeys groupId =
      some (group.received json env groupId kind entry).keys := by
  rw [ClientDb.groupKeys, ClientDb.groupRecvOnce_loadedGroup json env kind entry listed]
  rfl

/-- After a rekey was accepted, the current key is its key or that of a rekey accepted since. -/
theorem Follows.current {groupId : GroupId P} {state : KeyRun P} {keys : AeadKey × AeadKey}
    (follows : state.Follows groupId) (held : state.db.groupKeys groupId = some keys)
    {earlier later : List (Bytes × AeadKey)} {rekey : Bytes × AeadKey}
    (accepted : state.taken = earlier ++ rekey :: later) :
    keys.1 = rekey.2 ∨ keys.1 ∈ later.map Prod.snd := by
  rw [Follows, held] at follows
  obtain ⟨initial, _, reached⟩ := Option.map_eq_some_iff.mp follows.symm
  have current := rotated_fst initial (state.taken.map Prod.snd)
  rw [reached, accepted, List.map_append, List.map_cons] at current
  cases last : (later.map Prod.snd).getLast? with
  | none =>
      rw [List.getLast?_eq_none_iff] at last
      rw [last] at current
      simp only [List.getLast?_append, List.getLast?_singleton, Option.some_or,
        Option.getD_some] at current
      exact Or.inl current
  | some newKey =>
      have inside := List.mem_of_getLast? last
      simp only [List.getLast?_append, List.getLast?_cons, last, Option.getD_some,
        Option.some_or] at current
      exact Or.inr (current ▸ inside)

/-- A step keeps the keys in line with the record exactly when it is no replay. -/
theorem follows_step {json : JsonReader P} {groupId : GroupId P} {state next : KeyRun P}
    {event : KeyEvent P} (follows : state.Follows groupId)
    (taken : (machine json groupId).step state event = some next) :
    next.Follows groupId ↔ Unreplayed groupId state event := by
  cases event with
  | messages env entry =>
      simp only [machine] at taken
      split at taken
      · simp at taken
      · rename_i group listed
        cases taken
        rw [Follows, groupKeys_of_lookup listed] at follows
        have keys := groupKeys_round json env .messages entry listed
        rw [GroupRecord.received_messages_keys] at keys
        simp only [Follows, Unreplayed]
        rw [keys]
        cases accepted : group.accepts env groupId entry with
        | none =>
            refine iff_of_true follows ?_
            rintro _ _ _ found rekey
            obtain rfl := Option.some.inj (listed.symm.trans found)
            simp [accepted] at rekey
        | some rekey =>
            obtain ⟨signed, newKey⟩ := rekey
            by_cases again : Signable.signedValue signed ∈ state.taken.map Prod.fst
            · simp only [record, if_pos again]
              rw [← follows, Option.some.injEq]
              constructor
              · rintro same _ _ _ found other _
                obtain rfl := Option.some.inj (listed.symm.trans found)
                cases accepted.symm.trans other
                exact same
              · intro unreplayed
                exact unreplayed group signed newKey listed accepted again
            · simp only [record, if_neg again]
              obtain ⟨initial, start, reached⟩ := Option.map_eq_some_iff.mp follows.symm
              refine iff_of_true ?_ ?_
              · rw [start, Option.map_some, List.map_append, List.map_cons, List.map_nil,
                  rotated_snoc, reached]
                rfl
              · rintro _ _ _ found other known
                obtain rfl := Option.some.inj (listed.symm.trans found)
                cases accepted.symm.trans other
                exact absurd known again
  | management env entry =>
      simp only [machine] at taken
      split at taken
      · simp at taken
      · rename_i group listed
        cases taken
        refine iff_of_true ?_ trivial
        rw [Follows, groupKeys_of_lookup listed] at follows
        rw [Follows, groupKeys_round json env .management entry listed,
          GroupRecord.received_management_keys]
        exact follows
  | other db =>
      simp only [machine] at taken
      split at taken
      · rename_i same
        cases taken
        exact iff_of_true (same.trans follows) trivial
      · simp at taken

/-- In every state of a run the keys are those which the accepted rekeys lead to, each
taken once, exactly in the runs without an effective replay. -/
theorem follows_iff (json : JsonReader P) (groupId : GroupId P) (db : ClientDb P)
    (events : List (KeyEvent P)) :
    (machine json groupId).Always (Follows groupId) (start groupId db) events ↔
      (machine json groupId).Along (Unreplayed groupId) (start groupId db) events := by
  refine Machine.always_iff_along (fun holds taken => follows_step holds taken) ?_
  cases keys : db.groupKeys groupId <;> simp [Follows, start, keys, rotated]

def quietEnv : ClientEnv symbolic :=
  ⟨some bobbyIdentity, 10, 10, symbolicDirectory, fun _ => false⟩

/-- Alice rekeys twice. Somebody with a token posts the bytes of her first rekey again. -/
def repostedRun : List (KeyEvent symbolic) :=
  [.messages quietEnv (rekeyEntry alice 1 (symbolicKey 3) 5),
    .messages quietEnv (rekeyEntry alice 1 (symbolicKey 4) 6),
    .messages quietEnv (rekeyEntry alice 1 (symbolicKey 3) 7)]

/-- In the run the first rekey is taken a second time. -/
theorem repostedRun_breaks :
    ¬(machine symbolicJson exampleGroup.id).Always (Follows exampleGroup.id)
      (start exampleGroup.id joinedDb) repostedRun := by
  intro always
  have ends : ((machine symbolicJson exampleGroup.id).exec (start exampleGroup.id joinedDb)
      repostedRun).map (fun state =>
        (state.db.groupKeys exampleGroup.id, state.initial, state.taken.map Prod.snd)) =
      some (some (symbolicKey 3, symbolicKey 4), some (symbolicKey 1, symbolicKey 1),
        [symbolicKey 3, symbolicKey 4]) := by decide +kernel
  obtain ⟨state, reached, held⟩ := Option.map_eq_some_iff.mp ends
  simp only [Prod.mk.injEq] at held
  obtain ⟨keys, initial, accepted⟩ := held
  have follows := always.last reached
  rw [Follows, keys, initial, accepted] at follows
  exact absurd follows (by decide)

end KeyRun
end Nullspace
