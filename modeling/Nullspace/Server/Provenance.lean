import Nullspace.Server.MediumPks
import Nullspace.Server.Profiles
import Nullspace.Server.Separation

/-!
# Where a server's answers come from

A server answers questions about users from tables which calls have written, in any order and
for any time. `answersSourced_always` says for each answer from which calls it can come: a
chain, a key or a profile goes back to a device which has authenticated itself for the user, an
entry to a send with the token whose hash it names, and a fragment to an upload.
-/

namespace Nullspace

open Nullspace.Base

variable {P : Primitives}

/-- A server, with the calls so far. The code keeps no record of these. -/
structure ServedRun (P : Primitives) where
  db : ServerDb P
  history : List (CallEnv P × ServerRequest P)

namespace ServedRun

def fresh : ServedRun P := ⟨.empty, []⟩

def machine (config : ServerConfig) :
    Machine (ServedRun P) (CallEnv P × ServerRequest P) where
  step run call :=
    some ⟨(run.db.handle config call.1 call.2).1, run.history ++ [call]⟩

end ServedRun

/-- The calls so far. -/
abbrev CallHistory (P : Primitives) := List (CallEnv P × ServerRequest P)

namespace CallHistory

/-- The device of the chain has authenticated itself for the user: the chain verified against
what the directory said about the user then. -/
def Authenticated (config : ServerConfig) (history : CallHistory P) (username : UserName)
    (chain : CertificateChain P) : Prop :=
  ∃ env, (env, .deviceAuth username chain) ∈ history ∧
    WatchedServer.Accepts config env username chain

/-- The entry was sent, with the token whose hash it names. -/
def Sent (history : CallHistory P) (mailbox : MailboxId P) (message : Blob)
    (receivedAt : NanoTimestamp) (senderHash : P.Hash) : Prop :=
  ∃ env auth ttl, (env, .mailboxSend auth mailbox message ttl) ∈ history ∧
    env.now = receivedAt ∧ P.bcsHash auth = senderHash

def Uploaded (history : CallHistory P) (frag : Fragment P) : Prop :=
  ∃ env auth ttl, (env, .uploadFrag auth frag ttl) ∈ history

/-- The key was handed in, signed by the device of the chain. -/
def HandedIn (history : CallHistory P) (mediumPk : SignedMediumPk P)
    (chain : CertificateChain P) : Prop :=
  (∃ env auth, (env, .deviceAddMediumPk auth mediumPk) ∈ history) ∧
    Signable.verify mediumPk chain.lastDevice.pk = true

/-- A profile which the user's device has signed was submitted for the user. -/
def Published (config : ServerConfig) (history : CallHistory P) (username : UserName)
    (profile : UserProfile P) : Prop :=
  (∃ env, (env, .profileSet username profile) ∈ history) ∧
    ∃ chain, Authenticated config history username chain ∧
      Signable.verify profile chain.lastDevice.pk = true

end CallHistory

open CallHistory

/-- What an answer may say. -/
def AnswerSourced (config : ServerConfig) (history : CallHistory P) :
    ServerRequest P → ServerResponse P → Prop
  | .deviceCerts username, .certs (.ok (some rows)) =>
      ∀ row ∈ rows, row.1 = ServerDb.deviceHash row.2 ∧
        Authenticated config history username row.2
  | .deviceMediumPks username, .mediumPks (.ok rows) =>
      ∀ row ∈ rows, ∃ chain, Authenticated config history username chain ∧
        row.1 = ServerDb.deviceHash chain ∧ HandedIn history row.2 chain
  | .profile username, .profile (.ok (some profile)) =>
      Published config history username profile
  | .mailboxMultirecv _ _, .entries (.ok answers) =>
      ∀ answer ∈ answers, ∀ entry ∈ answer.2, ∃ senderHash,
        entry.senderAuthTokenHash = some senderHash ∧
          Sent history answer.1 entry.message entry.receivedAt senderHash
  | .downloadFrag hash, .fragment (.ok (some frag)) =>
      P.bcsHash frag = hash ∧ Uploaded history frag
  | _, _ => True

namespace ServerDb

/-- No row is new but in the tables of mailboxes and rights. -/
structure Calm (db next : ServerDb P) : Prop where
  certificates : next.deviceCertificates = db.deviceCertificates
  tokens : next.deviceAuthTokens = db.deviceAuthTokens
  mediumPks : next.deviceMediumPks = db.deviceMediumPks
  profiles : next.userProfiles = db.userProfiles
  files : next.fragmentFiles = db.fragmentFiles
  entries : ∀ row ∈ next.mailboxEntries, row ∈ db.mailboxEntries

theorem Calm.refl (db : ServerDb P) : Calm db db := ⟨rfl, rfl, rfl, rfl, rfl, fun _ => id⟩

theorem Calm.trans {first second third : ServerDb P} (before : Calm first second)
    (after : Calm second third) : Calm first third where
  certificates := after.certificates.trans before.certificates
  tokens := after.tokens.trans before.tokens
  mediumPks := after.mediumPks.trans before.mediumPks
  profiles := after.profiles.trans before.profiles
  files := after.files.trans before.files
  entries row listed := before.entries row (after.entries row listed)

theorem calm_purge (db : ServerDb P) (now : NanoTimestamp) :
    Calm db (db.purgeExpiredEntries now) :=
  ⟨rfl, rfl, rfl, rfl, rfl, fun _ listed => (List.mem_filter.mp listed).1⟩

theorem calm_insertAcl {db next : ServerDb P} {mailbox : MailboxId P} {acl : MailboxAcl P}
    (inserted : db.insertAcl mailbox acl = some next) : Calm db next := by
  obtain ⟨_, rfl⟩ := insertAcl_eq_some.mp inserted
  exact ⟨rfl, rfl, rfl, rfl, rfl, fun _ => id⟩

theorem calm_registerMailbox {db next : ServerDb P} {now : NanoTimestamp} {auth : AuthToken}
    {mailbox : MailboxId P} (registered : db.registerMailbox now auth mailbox = some next) :
    Calm db next := by
  have opened : Calm db (db.insertMailbox mailbox now) := ⟨rfl, rfl, rfl, rfl, rfl, fun _ => id⟩
  exact opened.trans (calm_insertAcl registered)

theorem calm_registerGroup (env : CallEnv P) (auth : AuthToken) (group : GroupId P)
    (db : ServerDb P) : Calm db (db.registerGroup env auth group).1 := by
  rw [registerGroup]
  split
  · exact .refl db
  · split
    · exact .refl db
    · split
      · exact .refl db
      · rename_i messages
        split
        · exact .refl db
        · rename_i management
          exact (calm_registerMailbox messages).trans (calm_registerMailbox management)

theorem calm_mailboxAclEdit (env : CallEnv P) (auth : AuthToken) (mailbox : MailboxId P)
    (arg : MailboxAcl P) (db : ServerDb P) :
    Calm db (db.mailboxAclEdit env auth mailbox arg).1 := by
  rcases mailboxAclEdit_cases db env auth mailbox arg with
    ⟨_, outcome⟩ | ⟨_, outcome⟩ | ⟨_, _, outcome⟩
  · rw [outcome]
    exact ⟨rfl, rfl, rfl, rfl, rfl, fun _ => id⟩
  · rw [outcome]
    exact ⟨rfl, rfl, rfl, rfl, rfl, fun _ => id⟩
  · rw [outcome]
    exact .refl db

theorem calm_mailboxMultirecv (env : CallEnv P) (args : List (MailboxRecvArgs P))
    (db : ServerDb P) : Calm db (db.mailboxMultirecv env args).1 := by
  have polled : ∀ arg, Calm db (db.pollMailbox env.now arg).1 := by
    intro arg
    simp only [pollMailbox]
    split
    · exact .refl db
    · exact calm_purge db env.now
  rw [mailboxMultirecv]
  split
  · exact .refl db
  · rename_i arg served
    split
    · exact .refl db
    · have calm := polled arg
      split <;> rename_i outcome <;> rw [outcome] at calm <;> exact calm

/-- A device which authenticates brings no fragment. -/
theorem fragmentFiles_deviceAuth (config : ServerConfig) (env : CallEnv P)
    (username : UserName) (cert : CertificateChain P) (db : ServerDb P) :
    (db.deviceAuth config env username cert).1.fragmentFiles = db.fragmentFiles := by
  simp only [deviceAuth]
  split
  · rfl
  · split
    · rfl
    · split
      · split
        · rfl
        · rename_i updated
          rw [updateDmMailbox_frame updated]
      · split
        · rfl
        · rename_i updated
          rw [updateDmMailbox_frame updated]
          rfl

/-- A key is stored for the device which has signed it. -/
theorem deviceAddMediumPk_signed (env : CallEnv P) (auth : AuthToken)
    (mediumPk : SignedMediumPk P) (db : ServerDb P) :
    (db.deviceAddMediumPk env auth mediumPk).1 = db ∨
      ∃ chain : CertificateChain P, Signable.verify mediumPk chain.lastDevice.pk = true ∧
        (db.deviceAddMediumPk env auth mediumPk).1 = { db with
          deviceMediumPks := db.deviceMediumPks.insert (deviceHash chain) mediumPk } := by
  rw [deviceAddMediumPk]
  split
  · exact .inl rfl
  · split
    · exact .inl rfl
    · split
      · exact .inl rfl
      · rename_i row _
        split
        · exact .inl rfl
        · split
          · exact .inl rfl
          · rename_i hash
            split
            · exact .inl rfl
            · rename_i signed
              split
              · exact .inl rfl
              · rw [not_not] at hash
                refine .inr ⟨row.certChain, by simpa using signed, ?_⟩
                rw [hash]

/-- A profile is stored when one of the user's listed devices has signed it. -/
theorem profileSet_cases (env : CallEnv P) (username : UserName) (profile : UserProfile P)
    (db : ServerDb P) :
    (db.profileSet env username profile).1 = db ∨
      ∃ listed ∈ db.certificatesOf username,
        Signable.verify profile listed.2.lastDevice.pk = true ∧
          (db.profileSet env username profile).1 =
            { db with userProfiles := db.userProfiles.insert username profile } := by
  simp only [profileSet]
  split
  · exact .inl rfl
  · split
    · exact .inl rfl
    · rename_i signed
      split
      · exact .inl rfl
      · rw [Bool.not_eq_true, Bool.not_eq_false', List.any_eq_true] at signed
        obtain ⟨listed, member, verified⟩ := signed
        split
        · exact .inr ⟨listed, member, verified, rfl⟩
        · split
          · exact .inl rfl
          · exact .inr ⟨listed, member, verified, rfl⟩

/-- A fragment's file is under the hash of the fragment. -/
theorem uploadFrag_cases (env : CallEnv P) (auth : AuthToken) (frag : Fragment P) (ttl : UInt32)
    (db : ServerDb P) :
    (db.uploadFrag env auth frag ttl).1 = db ∨
      ∃ fragments, (db.uploadFrag env auth frag ttl).1 = { db with
        fragments := fragments
        fragmentFiles := db.fragmentFiles.insert (P.bcsHash frag) frag } := by
  simp only [uploadFrag]
  split
  · exact .inl rfl
  · split
    · exact .inr ⟨_, rfl⟩
    · exact .inr ⟨_, rfl⟩

/-- The calls which write to one of the other tables. -/
def writes : ServerRequest P → Bool
  | .deviceAuth .. | .deviceAddMediumPk .. | .profileSet .. | .mailboxSend .. | .uploadFrag .. =>
      true
  | _ => false

/-- Only the calls of `writes` bring rows to the other tables. -/
theorem calm_handle (config : ServerConfig) (env : CallEnv P) (db : ServerDb P)
    {request : ServerRequest P} (quiet : writes request = false) :
    Calm db (db.handle config env request).1 := by
  cases request with
  | deviceAuth | deviceAddMediumPk | profileSet | mailboxSend | uploadFrag => cases quiet
  | mailboxMultirecv args timeoutMs => exact calm_mailboxMultirecv env args db
  | mailboxAclEdit auth mailbox arg => exact calm_mailboxAclEdit env auth mailbox arg db
  | registerGroup auth group => exact calm_registerGroup env auth group db
  | _ => exact .refl db

end ServerDb

namespace ServedRun

/-- Where the rows come from. -/
structure Sourced (config : ServerConfig) (run : ServedRun P) : Prop where
  certificates : ∀ hash row, run.db.deviceCertificates.lookup hash = some row →
    hash = ServerDb.deviceHash row.certChain ∧
      Authenticated config run.history row.username row.certChain
  tokens : ∀ username hash token, run.db.deviceAuthTokens.lookup (username, hash) = some token →
    ∃ chain, Authenticated config run.history username chain ∧ hash = ServerDb.deviceHash chain
  mediumPks : ∀ hash key, run.db.deviceMediumPks.lookup hash = some key →
    ∃ chain, hash = ServerDb.deviceHash chain ∧ HandedIn run.history key chain
  profiles : ∀ username profile, run.db.userProfiles.lookup username = some profile →
    Published config run.history username profile
  files : ∀ hash frag, run.db.fragmentFiles.lookup hash = some frag →
    P.bcsHash frag = hash ∧ Uploaded run.history frag
  entries : ∀ row ∈ run.db.mailboxEntries,
    Sent run.history row.mailboxId row.message row.receivedAt row.senderAuthTokenHash

theorem sourced_fresh (config : ServerConfig) : (fresh (P := P)).Sourced config where
  certificates hash row found := by simp [fresh, ServerDb.empty] at found
  tokens username hash token found := by simp [fresh, ServerDb.empty] at found
  mediumPks hash key found := by simp [fresh, ServerDb.empty] at found
  profiles username profile found := by simp [fresh, ServerDb.empty] at found
  files hash frag found := by simp [fresh, ServerDb.empty] at found
  entries row listed := by simp [fresh, ServerDb.empty] at listed

section

variable {config : ServerConfig} {history : CallHistory P} {username : UserName}
  {chain : CertificateChain P}

/-- More calls take no source away. -/
theorem authenticated_append (call : CallEnv P × ServerRequest P)
    (authenticated : Authenticated config history username chain) :
    Authenticated config (history ++ [call]) username chain := by
  obtain ⟨env, listed, accepts⟩ := authenticated
  exact ⟨env, List.mem_append_left _ listed, accepts⟩

theorem sent_append (call : CallEnv P × ServerRequest P) {mailbox : MailboxId P}
    {message : Blob} {receivedAt : NanoTimestamp} {senderHash : P.Hash}
    (sent : Sent history mailbox message receivedAt senderHash) :
    Sent (history ++ [call]) mailbox message receivedAt senderHash := by
  obtain ⟨env, auth, ttl, listed, rest⟩ := sent
  exact ⟨env, auth, ttl, List.mem_append_left _ listed, rest⟩

theorem handedIn_append (call : CallEnv P × ServerRequest P) {mediumPk : SignedMediumPk P}
    (handedIn : HandedIn history mediumPk chain) :
    HandedIn (history ++ [call]) mediumPk chain := by
  obtain ⟨⟨env, auth, listed⟩, signed⟩ := handedIn
  exact ⟨⟨env, auth, List.mem_append_left _ listed⟩, signed⟩

theorem published_append (call : CallEnv P × ServerRequest P) {profile : UserProfile P}
    (published : Published config history username profile) :
    Published config (history ++ [call]) username profile := by
  obtain ⟨⟨env, listed⟩, chain, authenticated, signed⟩ := published
  exact ⟨⟨env, List.mem_append_left _ listed⟩, chain, authenticated_append call authenticated,
    signed⟩

theorem uploaded_append (call : CallEnv P × ServerRequest P) {frag : Fragment P}
    (uploaded : Uploaded history frag) : Uploaded (history ++ [call]) frag := by
  obtain ⟨env, auth, ttl, listed⟩ := uploaded
  exact ⟨env, auth, ttl, List.mem_append_left _ listed⟩

end

/-- One call more, which changes no table. -/
theorem Sourced.append {config : ServerConfig} {run : ServedRun P} (sourced : run.Sourced config)
    (call : CallEnv P × ServerRequest P) : Sourced config ⟨run.db, run.history ++ [call]⟩ where
  certificates hash row found :=
    (sourced.certificates hash row found).imp_right (authenticated_append call)
  tokens username hash token found := by
    obtain ⟨chain, authenticated, same⟩ := sourced.tokens username hash token found
    exact ⟨chain, authenticated_append call authenticated, same⟩
  mediumPks hash key found := by
    obtain ⟨chain, same, handedIn⟩ := sourced.mediumPks hash key found
    exact ⟨chain, same, handedIn_append call handedIn⟩
  profiles username profile found := published_append call (sourced.profiles username profile found)
  files hash frag found := (sourced.files hash frag found).imp_right (uploaded_append call)
  entries row listed := sent_append call (sourced.entries row listed)

theorem Sourced.of_calm {config : ServerConfig} {run : ServedRun P} (sourced : run.Sourced config)
    {db : ServerDb P} (calm : run.db.Calm db) : Sourced config ⟨db, run.history⟩ where
  certificates := by
    rw [calm.certificates]
    exact sourced.certificates
  tokens := by
    rw [calm.tokens]
    exact sourced.tokens
  mediumPks := by
    rw [calm.mediumPks]
    exact sourced.mediumPks
  profiles := by
    rw [calm.profiles]
    exact sourced.profiles
  files := by
    rw [calm.files]
    exact sourced.files
  entries row listed := sourced.entries row (calm.entries row listed)

/-- Each row has its source after a device authenticates. -/
theorem Sourced.deviceAuth {config : ServerConfig} {run : ServedRun P}
    (sourced : run.Sourced config) (env : CallEnv P) (username : UserName)
    (cert : CertificateChain P) :
    Sourced config ⟨(run.db.deviceAuth config env username cert).1,
      run.history ++ [(env, .deviceAuth username cert)]⟩ := by
  have before := sourced.append (env, .deviceAuth username cert)
  rcases ServerDb.deviceAuth_cases config env username cert run.db with
    ⟨err, refused, _⟩ | ⟨next, token, accepted, accepts, tokens⟩
  · rw [refused]
    exact before
  · have now : Authenticated config (run.history ++ [(env, .deviceAuth username cert)]) username
        cert := ⟨env, List.mem_append_right _ (List.mem_singleton_self _), accepts⟩
    obtain ⟨certificates, mediumPks, profiles, _⟩ :=
      ServerDb.deviceAuth_tables (congrArg Prod.snd accepted)
    have entries := ServerDb.mailboxEntries_deviceAuth config env username cert run.db
    have files := ServerDb.fragmentFiles_deviceAuth config env username cert run.db
    rw [accepted] at certificates mediumPks profiles entries files ⊢
    refine ⟨?_, ?_, ?_, ?_, ?_, ?_⟩
    · intro hash row found
      rw [certificates] at found
      rcases Table.lookup_insert_cases found with ⟨rfl, rfl⟩ | earlier
      · exact ⟨rfl, now⟩
      · exact before.certificates hash row earlier
    · intro other hash stored found
      rcases tokens with ⟨_, same⟩ | ⟨_, issued⟩
      · rw [same] at found
        exact before.tokens other hash stored found
      · rw [issued] at found
        rcases Table.lookup_insert_cases found with ⟨same, rfl⟩ | earlier
        · cases same
          exact ⟨cert, now, rfl⟩
        · exact before.tokens other hash stored (Table.lookup_of_lookup_keep earlier)
    · rw [mediumPks]
      exact before.mediumPks
    · rw [profiles]
      exact before.profiles
    · rw [files]
      exact before.files
    · rw [entries]
      exact before.entries

/-- Each row has its source after a medium-term key is handed in. -/
theorem Sourced.deviceAddMediumPk {config : ServerConfig} {run : ServedRun P}
    (sourced : run.Sourced config) (env : CallEnv P) (auth : AuthToken)
    (mediumPk : SignedMediumPk P) :
    Sourced config ⟨(run.db.deviceAddMediumPk env auth mediumPk).1,
      run.history ++ [(env, .deviceAddMediumPk auth mediumPk)]⟩ := by
  have before := sourced.append (env, .deviceAddMediumPk auth mediumPk)
  rcases ServerDb.deviceAddMediumPk_signed env auth mediumPk run.db with
    same | ⟨chain, signed, stored⟩
  · rw [same]
    exact before
  · rw [stored]
    refine ⟨before.certificates, before.tokens, ?_, before.profiles, before.files,
      before.entries⟩
    intro hash key found
    rcases Table.lookup_insert_cases found with ⟨rfl, rfl⟩ | earlier
    · exact ⟨chain, rfl,
        ⟨env, auth, List.mem_append_right _ (List.mem_singleton_self _)⟩, signed⟩
    · exact before.mediumPks hash key earlier

/-- Each row has its source after a profile is submitted. -/
theorem Sourced.profileSet {config : ServerConfig} {run : ServedRun P}
    (sourced : run.Sourced config) (env : CallEnv P) (username : UserName)
    (profile : UserProfile P) :
    Sourced config ⟨(run.db.profileSet env username profile).1,
      run.history ++ [(env, .profileSet username profile)]⟩ := by
  have before := sourced.append (env, .profileSet username profile)
  rcases ServerDb.profileSet_cases env username profile run.db with
    same | ⟨⟨hash, chain⟩, listed, signed, stored⟩
  · rw [same]
    exact before
  · rw [stored]
    refine ⟨before.certificates, before.tokens, before.mediumPks, ?_, before.files,
      before.entries⟩
    intro other found listedFound
    rcases Table.lookup_insert_cases listedFound with ⟨rfl, rfl⟩ | earlier
    · have row := ServerDb.mem_certificatesOf.mp listed
      exact ⟨⟨env, List.mem_append_right _ (List.mem_singleton_self _)⟩, chain,
        (before.certificates hash _ row).2, signed⟩
    · exact before.profiles other found earlier

/-- Each row has its source after an entry is sent. -/
theorem Sourced.mailboxSend {config : ServerConfig} {run : ServedRun P}
    (sourced : run.Sourced config) (env : CallEnv P) (auth : AuthToken) (mailbox : MailboxId P)
    (message : Blob) (ttl : UInt32) :
    Sourced config ⟨(run.db.mailboxSend env.now env.dbFails auth mailbox message ttl).1,
      run.history ++ [(env, .mailboxSend auth mailbox message ttl)]⟩ := by
  have before := sourced.append (env, .mailboxSend auth mailbox message ttl)
  rcases ServerDb.mailboxSend_cases env.now env.dbFails auth mailbox message ttl run.db with
    ⟨err, refused⟩ | ⟨next, accepted, inserted⟩
  · rw [refused]
    exact before
  · have purged := before.of_calm (ServerDb.calm_purge run.db env.now)
    obtain ⟨_, _, rfl⟩ := ServerDb.insertEntry_eq_some.mp inserted
    rw [accepted]
    refine ⟨purged.certificates, purged.tokens, purged.mediumPks, purged.profiles, purged.files,
      ?_⟩
    intro row listed
    rcases List.mem_append.mp listed with earlier | new
    · exact purged.entries row earlier
    · rw [List.mem_singleton.mp new]
      exact ⟨env, auth, ttl, List.mem_append_right _ (List.mem_singleton_self _), rfl, rfl⟩

/-- Each row has its source after a fragment is uploaded. -/
theorem Sourced.uploadFrag {config : ServerConfig} {run : ServedRun P}
    (sourced : run.Sourced config) (env : CallEnv P) (auth : AuthToken) (frag : Fragment P)
    (ttl : UInt32) :
    Sourced config ⟨(run.db.uploadFrag env auth frag ttl).1,
      run.history ++ [(env, .uploadFrag auth frag ttl)]⟩ := by
  have before := sourced.append (env, .uploadFrag auth frag ttl)
  rcases ServerDb.uploadFrag_cases env auth frag ttl run.db with same | ⟨fragments, stored⟩
  · rw [same]
    exact before
  · rw [stored]
    refine ⟨before.certificates, before.tokens, before.mediumPks, before.profiles, ?_,
      before.entries⟩
    intro hash found listed
    rcases Table.lookup_insert_cases listed with ⟨rfl, rfl⟩ | earlier
    · exact ⟨rfl, env, auth, ttl, List.mem_append_right _ (List.mem_singleton_self _)⟩
    · exact before.files hash found earlier

/-- Each row has its source after any call. -/
theorem Sourced.step {config : ServerConfig} {run next : ServedRun P}
    {call : CallEnv P × ServerRequest P} (sourced : run.Sourced config)
    (taken : (machine config).step run call = some next) : next.Sourced config := by
  cases taken
  obtain ⟨env, request⟩ := call
  cases request with
  | deviceAuth username cert => exact sourced.deviceAuth env username cert
  | deviceAddMediumPk auth mediumPk => exact sourced.deviceAddMediumPk env auth mediumPk
  | profileSet username profile => exact sourced.profileSet env username profile
  | mailboxSend auth mailbox message ttl => exact sourced.mailboxSend env auth mailbox message ttl
  | uploadFrag auth frag ttl => exact sourced.uploadFrag env auth frag ttl
  | _ =>
      exact (sourced.append _).of_calm (ServerDb.calm_handle config env run.db rfl)

section

variable {config : ServerConfig} {run : ServedRun P} (env : CallEnv P)

/-- The chains of an answer were presented by their devices. -/
theorem Sourced.certs (sourced : run.Sourced config) (username : UserName) :
    AnswerSourced config run.history (.deviceCerts username)
      (.certs (run.db.deviceList env username)) := by
  rw [ServerDb.deviceList]
  split
  · trivial
  · split
    · trivial
    · rintro ⟨hash, chain⟩ listed
      exact sourced.certificates hash _ (ServerDb.mem_certificatesOf.mp listed)

/-- A key is served for a device which has a token of the user, and two devices with one hash
have one key. -/
theorem Sourced.keys (free : P.CollisionFree) (sourced : run.Sourced config)
    (username : UserName) :
    AnswerSourced config run.history (.deviceMediumPks username)
      (.mediumPks (run.db.deviceMediumPksOf env username)) := by
  rw [ServerDb.deviceMediumPksOf]
  split
  · trivial
  · rintro ⟨hash, key⟩ listed
    obtain ⟨row, owned⟩ := List.mem_filter.mp listed
    obtain ⟨token, stored⟩ := Option.isSome_iff_exists.mp
      (AList.lookup_isSome.mpr (of_decide_eq_true owned))
    obtain ⟨chain, authenticated, same⟩ := sourced.tokens username hash token stored
    obtain ⟨other, named, handedIn, signed⟩ :=
      sourced.mediumPks hash key (Table.mem_rows.mp row)
    have devices : other.lastDevice.pk = chain.lastDevice.pk :=
      free.bcsHash_inj.mp (named.symm.trans same)
    exact ⟨chain, authenticated, same, handedIn, devices ▸ signed⟩

/-- The profile of an answer was submitted for the user. -/
theorem Sourced.profileOf (sourced : run.Sourced config) (username : UserName) :
    AnswerSourced config run.history (.profile username)
      (.profile (run.db.profileGet env username)) := by
  rw [ServerDb.profileGet]
  split
  · trivial
  · cases found : run.db.userProfiles.lookup username with
    | none => trivial
    | some profile => exact sourced.profiles username profile found

/-- The entries of an answer were sent. -/
theorem Sourced.mail (sourced : run.Sourced config) (args : List (MailboxRecvArgs P))
    (timeoutMs : UInt64) :
    AnswerSourced config run.history (.mailboxMultirecv args timeoutMs)
      (.entries (run.db.mailboxMultirecv env args).2) := by
  rw [ServerDb.mailboxMultirecv]
  split
  · exact fun _ listed => absurd listed List.not_mem_nil
  · rename_i arg _
    split
    · trivial
    · split
      · trivial
      · exact fun _ listed => absurd listed List.not_mem_nil
      · rename_i next rows _ polled
        intro answer listed entry member
        rw [List.mem_singleton.mp listed] at member ⊢
        obtain ⟨row, inPage, rfl⟩ := List.mem_map.mp member
        rw [ServerDb.pollMailbox] at polled
        split at polled
        · cases polled
        · cases polled
          obtain ⟨stored, here, _⟩ := ServerDb.mem_entriesAfter.mp (List.mem_of_mem_take inPage)
          have sent := sourced.entries row ((ServerDb.calm_purge run.db env.now).entries row stored)
          rw [here] at sent
          exact ⟨row.senderAuthTokenHash, rfl, sent⟩

/-- The fragment of an answer was uploaded. -/
theorem Sourced.fragment (sourced : run.Sourced config) (hash : P.Hash) :
    AnswerSourced config run.history (.downloadFrag hash)
      (.fragment (run.db.downloadFrag hash)) := by
  rw [ServerDb.downloadFrag]
  cases found : run.db.fragmentFiles.lookup hash with
  | none => trivial
  | some frag => exact sourced.files hash frag found

end

/-- Every answer of a server, in every state which calls of anybody lead to, goes back to the
calls which may have brought it. -/
theorem answersSourced_always (free : P.CollisionFree) (config : ServerConfig)
    (calls : List (CallEnv P × ServerRequest P)) :
    (machine config).Always (fun run => ∀ env request,
      AnswerSourced config run.history request (run.db.handle config env request).2)
      fresh calls := by
  intro before position run reached env request
  have sourced : run.Sourced config :=
    Machine.always_of_step Sourced.step calls (sourced_fresh config) before position run reached
  cases request with
  | deviceCerts username => exact sourced.certs env username
  | deviceMediumPks username => exact sourced.keys env free username
  | profile username => exact sourced.profileOf env username
  | mailboxMultirecv args timeoutMs => exact sourced.mail env args timeoutMs
  | downloadFrag hash => exact sourced.fragment hash
  | _ => trivial

open WatchedServer (aliceChain envWith exampleServer tokenOf)

/-- Alice's device authenticates itself, hands in a key, and somebody writes to her. -/
def aliceServed : List (CallEnv symbolic × ServerRequest symbolic) :=
  [(envWith (tokenOf 1), .deviceAuth alice aliceChain),
    (envWith (tokenOf 2), .deviceAddMediumPk (tokenOf 1) (SubmittedPks.aliceCall 5 5).mediumPk),
    (envWith (tokenOf 2), .profileSet alice (ProfileRun.aliceProfile "a" 5)),
    (envWith (tokenOf 2), .mailboxSend .anonymous (.direct alice) ⟨"x", []⟩ 0)]

/-- In the run in which Alice's device is served, every answer has a source. -/
theorem answersSourced_always_alice :
    (machine exampleServer).Always (fun run => ∀ env request,
      AnswerSourced exampleServer run.history request (run.db.handle exampleServer env request).2)
      fresh aliceServed :=
  answersSourced_always symbolic_collisionFree exampleServer aliceServed

end ServedRun
end Nullspace
