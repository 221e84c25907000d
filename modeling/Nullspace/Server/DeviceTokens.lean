import Nullspace.Server.Control
import Nullspace.Server.Separation

/-!
# Whether the token of a device works

A device gets the token which it got first, with a row of its own in the user's direct
mailbox. Later calls write the anonymous row again, but not the device's, which an edit may
have removed or changed meanwhile. `deviceTokens_iff` says in which runs every token which
`device_auth` returns lets its device receive; `provides_of_spares` that runs whose edits
spare the rows of the devices are among them.
-/

namespace Nullspace

open Nullspace.Base

variable {P : Primitives}

namespace ServerDb

/-- The ACL rows after `update_dm_mailbox`. -/
def rowAfter (db : ServerDb P) (username : UserName) (newToken : Option AuthToken)
    (mailbox : MailboxId P) (tokenHash : P.Hash) : Option AclRights :=
  if mailbox = MailboxId.direct username ∧ newToken.map P.bcsHash = some tokenHash then
    some ⟨false, true, true⟩
  else if mailbox = MailboxId.direct username ∧ tokenHash = P.bcsHash AuthToken.anonymous then
    some ⟨false, true, false⟩
  else db.loadAclHash mailbox tokenHash

/-- `rowAfter` is what `update_dm_mailbox` leaves. -/
theorem loadAclHash_updateDmMailbox {db next : ServerDb P} {now : NanoTimestamp}
    {username : UserName} {newToken : Option AuthToken}
    (updated : db.updateDmMailbox now username newToken = some next) (mailbox : MailboxId P)
    (tokenHash : P.Hash) :
    next.loadAclHash mailbox tokenHash = db.rowAfter username newToken mailbox tokenHash := by
  simp only [updateDmMailbox] at updated
  split at updated
  · cases updated
  · rename_i middle inserted
    obtain ⟨_, rfl⟩ := insertAcl_eq_some.mp inserted
    cases newToken with
    | none =>
        cases updated
        rw [loadAclHash_withAcl, rowAfter]
        simp only [Option.map_none, reduceCtorEq, and_false, if_false]
        rfl
    | some token =>
        obtain ⟨_, rfl⟩ := insertAcl_eq_some.mp updated
        rw [loadAclHash_withAcl, loadAclHash_withAcl, rowAfter]
        simp only [Option.map_some, Option.some.injEq, eq_comm (a := tokenHash)]
        rfl

/-- What an accepted `device_auth` returns and writes: an old token and no row for it, or a new
token with a row. -/
theorem deviceAuth_accepted {config : ServerConfig} {env : CallEnv P} {username : UserName}
    {cert : CertificateChain P} {db next : ServerDb P} {token : AuthToken}
    (accepted : db.deviceAuth config env username cert = (next, .ok token)) :
    (db.deviceAuthTokens.lookup (username, deviceHash cert) = some token ∧
        next.deviceAuthTokens = db.deviceAuthTokens ∧
        ∀ mailbox tokenHash, next.loadAclHash mailbox tokenHash =
          db.rowAfter username none mailbox tokenHash) ∨
      (db.deviceAuthTokens.lookup (username, deviceHash cert) = none ∧ token = env.freshToken ∧
        next.deviceAuthTokens =
          (db.insertAuthToken username (deviceHash cert) token).deviceAuthTokens ∧
        ∀ mailbox tokenHash, next.loadAclHash mailbox tokenHash =
          db.rowAfter username (some token) mailbox tokenHash) := by
  rw [deviceAuth] at accepted
  split at accepted
  · cases accepted
  · split at accepted
    · cases accepted
    · dsimp only at accepted
      split at accepted
      · rename_i stored known
        split at accepted
        · cases accepted
        · rename_i updated
          cases accepted
          have rows := loadAclHash_updateDmMailbox updated
          exact Or.inl ⟨known, (aside_updateDmMailbox updated).tokens,
            fun mailbox tokenHash => rows mailbox tokenHash⟩
      · rename_i absent
        split at accepted
        · cases accepted
        · rename_i updated
          cases accepted
          have rows := loadAclHash_updateDmMailbox updated
          exact Or.inr ⟨absent, rfl, (aside_updateDmMailbox updated).tokens,
            fun mailbox tokenHash => rows mailbox tokenHash⟩

/-- The token may send to the user and receive, and everybody may send. -/
def Working (db : ServerDb P) (username : UserName) (token : AuthToken) : Prop :=
  (db.aclForToken (MailboxId.direct username) token).canSend = true ∧
    (db.aclForToken (MailboxId.direct username) token).canRecv = true ∧
    (db.aclForToken (MailboxId.direct username) .anonymous).canSend = true

/-- The token has a row of its own in the user's mailbox, which allows sending and receiving. -/
def Intact (db : ServerDb P) (username : UserName) (token : AuthToken) : Prop :=
  P.bcsHash token ≠ P.bcsHash AuthToken.anonymous ∧
    ∃ rights, db.loadAclHash (MailboxId.direct username) (P.bcsHash token) = some rights ∧
      rights.canSend = true ∧ rights.canRecv = true

/-- Everybody may send after an update. -/
theorem anonymous_sends {db next : ServerDb P} {username : UserName} {newToken : Option AuthToken}
    (rows : ∀ mailbox tokenHash, next.loadAclHash mailbox tokenHash =
      db.rowAfter username newToken mailbox tokenHash) :
    (next.aclForToken (MailboxId.direct username) .anonymous).canSend = true := by
  have row := rows (MailboxId.direct username) (P.bcsHash AuthToken.anonymous)
  rw [rowAfter] at row
  split at row
  · rw [aclForToken_own row]
  · rw [if_pos ⟨rfl, rfl⟩] at row
    rw [aclForToken_own row]

/-- A new token works. -/
theorem working_new {db next : ServerDb P} {username : UserName} {token : AuthToken}
    (rows : ∀ mailbox tokenHash, next.loadAclHash mailbox tokenHash =
      db.rowAfter username (some token) mailbox tokenHash) : next.Working username token := by
  have row := rows (MailboxId.direct username) (P.bcsHash token)
  rw [rowAfter, if_pos ⟨rfl, rfl⟩] at row
  refine ⟨?_, ?_, anonymous_sends rows⟩
  · rw [aclForToken_own row]
  · rw [aclForToken_own row]

/-- An old token works when its row is intact: without the row it falls back to the anonymous
one, which has just been written and does not allow receiving. -/
theorem working_old {db next : ServerDb P} {username : UserName} {token : AuthToken}
    (rows : ∀ mailbox tokenHash, next.loadAclHash mailbox tokenHash =
      db.rowAfter username none mailbox tokenHash) :
    next.Working username token ↔ db.Intact username token := by
  have own := rows (MailboxId.direct username) (P.bcsHash token)
  have everybody := rows (MailboxId.direct username) (P.bcsHash AuthToken.anonymous)
  simp only [rowAfter, Option.map_none, reduceCtorEq, and_false, if_false, and_self, true_and,
    if_true] at own everybody
  by_cases shared : P.bcsHash token = P.bcsHash AuthToken.anonymous
  · rw [if_pos shared] at own
    simp only [Working, Intact, aclForToken_own own, shared]
    simp
  · rw [if_neg shared] at own
    cases row : db.loadAclHash (MailboxId.direct username) (P.bcsHash token) with
    | none =>
        rw [row] at own
        simp only [Working, Intact, aclForToken_anonymous own, aclForToken_own everybody, row]
        simp
    | some rights =>
        rw [row] at own
        simp only [Working, Intact, aclForToken_own own, anonymous_sends rows, row]
        simp [shared]

/-- A returned token works exactly when the device has none yet or its row is intact. -/
theorem working_iff {config : ServerConfig} {env : CallEnv P} {username : UserName}
    {cert : CertificateChain P} {db next : ServerDb P} {token : AuthToken}
    (accepted : db.deviceAuth config env username cert = (next, .ok token)) :
    next.Working username token ↔
      ∀ stored, db.deviceAuthTokens.lookup (username, deviceHash cert) = some stored →
        db.Intact username stored := by
  rcases deviceAuth_accepted accepted with ⟨known, _, rows⟩ | ⟨absent, _, _, rows⟩
  · rw [working_old rows, known]
    simp only [Option.some.injEq, forall_eq']
  · rw [absent]
    simp only [reduceCtorEq, false_imp_iff, implies_true, iff_true]
    exact working_new rows

end ServerDb

namespace WatchedServer

/-- A device has one token, and no two devices have the same. -/
def OneEach (state : WatchedServer P) : Prop :=
  ∀ first ∈ state.issued, ∀ second ∈ state.issued,
    first.token = second.token ↔ first.username = second.username ∧ first.device = second.device

/-- A successful `device_auth` returns a token which works. -/
def Provides (config : ServerConfig) (state : WatchedServer P) (call : ServerCall P) : Prop :=
  ∀ username cert, call.request = .deviceAuth username cert → ∀ next token,
    state.db.deviceAuth config call.env username cert = (next, .ok token) →
      next.Working username token

/-- A device which has a token already, and is accepted again, has its row. -/
def RowIntact (config : ServerConfig) (state : WatchedServer P) (call : ServerCall P) : Prop :=
  ∀ username cert, call.request = .deviceAuth username cert →
    Accepts config call.env username cert → ∀ token,
      state.db.deviceAuthTokens.lookup (username, ServerDb.deviceHash cert) = some token →
        state.db.Intact username token

/-- A call provides a working token exactly when the row is intact. -/
theorem provides_iff (config : ServerConfig) (state : WatchedServer P) (call : ServerCall P) :
    Provides config state call ↔ RowIntact config state call := by
  refine forall_congr' fun username => forall_congr' fun cert => forall_congr' fun _ => ?_
  rcases ServerDb.deviceAuth_cases config call.env username cert state.db with
    ⟨err, outcome, refused⟩ | ⟨db, issued, outcome, accepts, _⟩
  · simp [outcome, refused]
  · have works := ServerDb.working_iff outcome
    constructor
    · intro provides _ token stored
      exact works.mp (provides db issued outcome) token stored
    · intro intact next token accepted
      cases outcome.symm.trans accepted
      exact works.mpr (intact accepts)

/-- The table holds what was issued. -/
def Stored (state : WatchedServer P) : Prop :=
  ∀ entry ∈ state.issued,
    state.db.deviceAuthTokens.lookup (entry.username, entry.device) = some entry.token

/-- A token which is about to be handed out leaves the others in the table. -/
theorem Stored.step {config : ServerConfig} {state next : WatchedServer P} {call : ServerCall P}
    (stored : state.Stored) (taken : (machine config).step state call = some next) :
    next.Stored := by
  obtain ⟨unused, ⟨username, cert, db, token, _, accepted, rfl⟩ | ⟨_, tokens, rfl⟩⟩ :=
    step_cases taken
  · intro entry listed
    rcases ServerDb.deviceAuth_accepted accepted with ⟨known, tokens, _⟩ | ⟨absent, rfl, tokens, _⟩
    · rw [tokens]
      rcases List.mem_append.mp listed with earlier | new
      · exact stored entry earlier
      · rw [List.mem_singleton.mp new]
        exact known
    · rw [tokens, ServerDb.insertAuthToken]
      rcases List.mem_append.mp listed with earlier | new
      · have found := stored entry earlier
        have apart : (entry.username, entry.device) ≠ (username, ServerDb.deviceHash cert) := by
          intro same
          rw [same, absent] at found
          cases found
        rw [AList.lookup_insert_ne apart, Table.lookup_keep]
        · exact found
        · intro row held
          -- the row is the entry's token, and no new token repeats an issued one
          obtain rfl := Option.some.inj (found.symm.trans held)
          refine decide_eq_true fun repeated => unused ?_
          exact List.mem_map.mpr ⟨entry, earlier, repeated⟩
      · rw [List.mem_singleton.mp new]
        exact AList.lookup_insert _
  · intro entry listed
    rw [tokens]
    exact stored entry listed

/-- In every run, a device keeps the token which it got first, and shares it with no other. -/
theorem oneEach_always (config : ServerConfig) (calls : List (ServerCall P)) :
    (machine config).Always OneEach fresh calls := by
  have stays : (machine config).Always (fun state => Traced (fun _ => True) state ∧ Stored state)
      fresh calls := by
    refine Machine.always_of_step ?_ calls ⟨traced_fresh _, fun entry listed => ?_⟩
    · intro state call next held taken
      exact ⟨held.1.step (fun _ _ _ _ _ => trivial) taken, held.2.step taken⟩
    · simp [fresh] at listed
  intro before position state reached
  obtain ⟨traced, stored⟩ := stays before position state reached
  intro first firstListed second secondListed
  constructor
  · intro same
    rw [traced.once first firstListed second secondListed same]
    exact ⟨rfl, rfl⟩
  · rintro ⟨username, device⟩
    have found := stored first firstListed
    rw [username, device, stored second secondListed] at found
    exact (Option.some.inj found).symm

/-- A device gets one token of its own in every run; that it works every time it is returned
holds exactly in the runs in which devices which come back have their rows. -/
theorem deviceTokens_iff (config : ServerConfig) (calls : List (ServerCall P)) :
    (machine config).Always OneEach fresh calls ∧
      ((machine config).Along (Provides config) fresh calls ↔
        (machine config).Along (RowIntact config) fresh calls) := by
  refine ⟨oneEach_always config calls, ?_⟩
  refine forall_congr' fun before => forall_congr' fun call => forall_congr' fun _ => ?_
  refine forall_congr' fun state => forall_congr' fun next => ?_
  refine forall_congr' fun _ => forall_congr' fun _ => ?_
  exact provides_iff config state call

/-- An edit which names a device in its user's direct mailbox lets it send and receive, and a
new token is not taken for the anonymous one. -/
structure Spares (state : WatchedServer P) (call : ServerCall P) : Prop where
  edits : ∀ auth mailbox arg, call.request = .mailboxAclEdit auth mailbox arg →
    ∀ entry ∈ state.issued, mailbox = MailboxId.direct entry.username →
      arg.tokenHash = P.bcsHash entry.token →
        arg.rights.canSend = true ∧ arg.rights.canRecv = true
  fresh : P.bcsHash call.env.freshToken ≠ P.bcsHash AuthToken.anonymous

/-- Every device has its row. -/
def Rows (state : WatchedServer P) : Prop :=
  ∀ entry ∈ state.issued, state.db.Intact entry.username entry.token

/-- The row of a device is as before, or one which allows sending and receiving. -/
theorem intact_of_row {before after : ServerDb P} {username : UserName} {token : AuthToken}
    (intact : before.Intact username token)
    (row : after.loadAclHash (MailboxId.direct username) (P.bcsHash token) =
        before.loadAclHash (MailboxId.direct username) (P.bcsHash token) ∨
      ∃ rights, after.loadAclHash (MailboxId.direct username) (P.bcsHash token) = some rights ∧
        rights.canSend = true ∧ rights.canRecv = true) : after.Intact username token := by
  refine ⟨intact.1, ?_⟩
  rcases row with same | written
  · rw [same]
    exact intact.2
  · exact written

/-- An edit which spares the devices leaves each its row. -/
theorem Rows.edit {state : WatchedServer P} {env : CallEnv P} {auth : AuthToken}
    {mailbox : MailboxId P} {arg : MailboxAcl P} (rows : state.Rows)
    (spared : ∀ entry ∈ state.issued, mailbox = MailboxId.direct entry.username →
      arg.tokenHash = P.bcsHash entry.token →
        arg.rights.canSend = true ∧ arg.rights.canRecv = true)
    {entry : IssuedToken P} (listed : entry ∈ state.issued) :
    (state.db.mailboxAclEdit env auth mailbox arg).1.Intact entry.username entry.token := by
  refine intact_of_row (rows entry listed) ?_
  by_cases named : MailboxId.direct entry.username = mailbox ∧ P.bcsHash entry.token = arg.tokenHash
  · obtain ⟨sends, receives⟩ := spared entry listed named.1.symm named.2.symm
    rcases ServerDb.mailboxAclEdit_cases state.db env auth mailbox arg with
      ⟨removes, _⟩ | ⟨_, outcome⟩ | ⟨_, _, outcome⟩
    · rw [removes.2.2] at sends
      exact absurd sends Bool.false_ne_true
    · rw [outcome, ServerDb.loadAclHash_withAcl, if_pos named]
      exact Or.inr ⟨arg.rights, rfl, sends, receives⟩
    · rw [outcome]
      exact Or.inl rfl
  · left
    rcases ServerDb.mailboxAclEdit_cases state.db env auth mailbox arg with
      ⟨_, outcome⟩ | ⟨_, outcome⟩ | ⟨_, _, outcome⟩
    · rw [outcome, ServerDb.loadAclHash_deleteAcl, if_neg named]
    · rw [outcome, ServerDb.loadAclHash_withAcl, if_neg named]
    · rw [outcome]

/-- A call which hands out no token keeps the rows when it spares them. -/
theorem Rows.handle {config : ServerConfig} {state : WatchedServer P} {call : ServerCall P}
    (rows : state.Rows) (spares : Spares state call)
    (noAuth : ∀ username cert, call.request ≠ .deviceAuth username cert)
    {entry : IssuedToken P} (listed : entry ∈ state.issued) :
    (state.db.handle config call.env call.request).1.Intact entry.username entry.token := by
  obtain ⟨caller, env, request⟩ := call
  by_cases edit : ∃ auth mailbox arg, request = .mailboxAclEdit auth mailbox arg
  · obtain ⟨auth, mailbox, arg, rfl⟩ := edit
    exact rows.edit (spares.edits auth mailbox arg rfl) listed
  by_cases register : ∃ auth group, request = .registerGroup auth group
  · obtain ⟨auth, group, rfl⟩ := register
    refine intact_of_row (rows entry listed) ?_
    rcases ServerDb.registerGroup_cases env auth group state.db with
      ⟨_, outcome⟩ | ⟨_, registered, _⟩
    · left
      simp only [ServerDb.handle, outcome]
    · simp only [ServerDb.handle, registered]
      split
      · exact Or.inr ⟨_, rfl, rfl, rfl⟩
      · exact Or.inl rfl
  · have same := ServerDb.sameAcl_handle config env state.db noAuth
      (fun auth mailbox arg equal => edit ⟨auth, mailbox, arg, equal⟩)
      (fun auth group equal => register ⟨auth, group, equal⟩)
    refine intact_of_row (rows entry listed) (Or.inl ?_)
    rw [ServerDb.loadAclHash, same.1]
    rfl

/-- A successful `device_auth` keeps the rows which are there. -/
theorem intact_rowAfter {before after : ServerDb P} {username owner : UserName}
    {newToken : Option AuthToken} {token : AuthToken}
    (rows : ∀ mailbox tokenHash, after.loadAclHash mailbox tokenHash =
      before.rowAfter username newToken mailbox tokenHash)
    (intact : before.Intact owner token) : after.Intact owner token := by
  refine intact_of_row intact ?_
  rw [rows, ServerDb.rowAfter]
  split
  · exact Or.inr ⟨_, rfl, rfl, rfl⟩
  · rw [if_neg fun same => intact.1 same.2]
    exact Or.inl rfl

/-- A step which spares the devices leaves each its row. -/
theorem Rows.step {config : ServerConfig} {state next : WatchedServer P} {call : ServerCall P}
    (traced : Traced (fun _ => True) state) (rows : state.Rows) (spares : Spares state call)
    (taken : (machine config).step state call = some next) : next.Rows := by
  intro entry listed
  obtain ⟨_, ⟨username, cert, db, token, _, accepted, rfl⟩ | ⟨refused, _, handled⟩⟩ :=
    step_cases taken
  · rcases ServerDb.deviceAuth_accepted accepted with ⟨known, _, after⟩ | ⟨_, rfl, _, after⟩
    · refine intact_rowAfter after ?_
      rcases List.mem_append.mp listed with earlier | new
      · exact rows entry earlier
      · rw [List.mem_singleton.mp new]
        exact rows _ (traced.table username _ token known)
    · rcases List.mem_append.mp listed with earlier | new
      · exact intact_rowAfter after (rows entry earlier)
      · rw [List.mem_singleton.mp new]
        refine ⟨spares.fresh, ⟨false, true, true⟩, ?_, rfl, rfl⟩
        rw [after, ServerDb.rowAfter, if_pos ⟨rfl, rfl⟩]
  · by_cases auth : ∃ username cert, call.request = .deviceAuth username cert
    · obtain ⟨username, cert, isAuth⟩ := auth
      obtain ⟨_, rfl⟩ := refused username cert isAuth
      exact rows entry listed
    · rw [handled] at listed ⊢
      exact rows.handle spares (fun username cert same => auth ⟨username, cert, same⟩) listed

/-- In a run whose edits spare the devices, every token which is returned works. -/
theorem provides_of_spares (config : ServerConfig) {calls : List (ServerCall P)}
    (spared : (machine config).Along Spares fresh calls) :
    (machine config).Along (Provides config) fresh calls := by
  have stays : (machine config).Always (fun state => Traced (fun _ => True) state ∧ Rows state)
      fresh calls := by
    refine Machine.always_of_along ?_ ⟨traced_fresh _, fun entry listed => ?_⟩ spared
    · intro state call next held spares taken
      exact ⟨held.1.step (fun _ _ _ _ _ => trivial) taken, held.2.step held.1 spares taken⟩
    · simp [fresh] at listed
  intro before call position state next reached _
  obtain ⟨traced, rows⟩ := stays before ((List.prefix_append before [call]).trans position) state
    reached
  rw [provides_iff]
  intro username cert _ _ token known
  exact rows _ (traced.table username _ token known)

/-- Alice's device gives up its row. -/
def aliceLeaves : ServerCall symbolic :=
  ⟨.other, envWith (tokenOf 2), .mailboxAclEdit (tokenOf 1) (MailboxId.direct alice)
    ⟨symbolic.bcsHash (tokenOf 1), .empty⟩⟩

/-- Alice's device authenticates, gives up its row in her mailbox, and authenticates again. -/
def leftRun : List (ServerCall symbolic) :=
  [⟨.other, envWith (tokenOf 1), .deviceAuth alice aliceChain⟩, aliceLeaves,
    ⟨.other, envWith (tokenOf 2), .deviceAuth alice aliceChain⟩]

/-- In the run the device gets a token which does not work. -/
theorem leftRun_shut_out :
    ¬(machine exampleServer).Along (Provides exampleServer) fresh leftRun := by
  intro along
  have rights : ((machine exampleServer).exec fresh (leftRun.take 2)).map (fun state =>
      ((state.db.deviceAuth exampleServer (envWith (tokenOf 2)) alice aliceChain).2,
        (state.db.deviceAuth exampleServer (envWith (tokenOf 2)) alice aliceChain).1.aclForToken
          (MailboxId.direct alice) (tokenOf 1))) =
      some (.ok (tokenOf 1), ⟨false, true, false⟩) := by decide +kernel
  obtain ⟨state, reached, held⟩ := Option.map_eq_some_iff.mp rights
  obtain ⟨returned, left⟩ := Prod.mk.inj held
  have ends : ((machine exampleServer).exec fresh leftRun).isSome = true := by decide +kernel
  obtain ⟨final, whole⟩ := Option.isSome_iff_exists.mp ends
  have split : leftRun =
      leftRun.take 2 ++ [⟨.other, envWith (tokenOf 2), .deviceAuth alice aliceChain⟩] := rfl
  rw [split] at whole
  obtain ⟨middle, arrived, taken⟩ := Machine.exec_snoc.mp whole
  cases reached.symm.trans arrived
  have provides := along (leftRun.take 2) _ (List.prefix_refl _) state final reached taken
  have works := provides alice aliceChain rfl _ (tokenOf 1) (Prod.ext rfl returned)
  rw [ServerDb.Working, left] at works
  exact Bool.false_ne_true works.2.1

end WatchedServer
end Nullspace
