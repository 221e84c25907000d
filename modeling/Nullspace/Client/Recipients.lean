import Nullspace.Client.MediumCache

/-!
# Who can read a message

The keys which a rekey is sealed for are those which the active members of the group offer,
and the keys which a direct message is sealed for are those which its addressee offers. A key
is offered when a device signed it whose chain verifies under the user's root.
-/

namespace Nullspace

open Nullspace.Base

variable {P : Primitives}

/-- `recipients_from_peer`. -/
def recipientsFromPeer (peer : UserInfo P) : Except EntryError (List P.DhPublic) :=
  Send.collectRecipients peer.username peer.deviceChains peer.mediumPks

/-- The recipients of a peer are those of its listed devices. -/
theorem recipientsFromPeer_ok {peer : UserInfo P} {recipients : List P.DhPublic}
    (collected : recipientsFromPeer peer = .ok recipients) :
    recipients = collectRecipients peer.deviceChains peer.mediumPks := by
  rw [recipientsFromPeer, Send.collectRecipients] at collected
  split at collected
  · cases collected
  · cases collected
    rfl

/-- A load which succeeds finds the group, and leaves its roster initialized. -/
theorem ClientDb.loadRoster_ok {env : ClientEnv P} {groupId : GroupId P} {initAdmin : UserName}
    {db next : ClientDb P} (loaded : db.loadRoster env groupId initAdmin = (next, .ok ())) :
    ∃ row, db.groups.lookup groupId = some row ∧
      next.groups.lookup groupId =
        some { row with roster := row.roster.ensureInitialized initAdmin } := by
  rw [loadRoster] at loaded
  split at loaded
  · cases loaded
  · split at loaded
    · cases loaded
    · rename_i row listed
      refine ⟨row, listed, ?_⟩
      split at loaded
      · rename_i marked
        cases loaded
        rw [listed, GroupRoster.ensureInitialized, if_pos marked]
      · rename_i unmarked
        split at loaded
        · cases loaded
        · dsimp only at loaded
          split at loaded
          · cases loaded
          · cases loaded
            rw [lookup_updateGroup (lookup_updateGroup listed _), GroupRoster.ensureInitialized,
              if_neg unmarked]

namespace PeerDb

/-- An active member of a roster offers the key. -/
def OfferedIn (env : PeerEnv P) (db : PeerDb P) (roster : GroupRoster) (key : P.DhPublic) : Prop :=
  ∃ username, roster.senderActive username = true ∧ db.OffersKey env username key

/-- The recipients of a group are the keys which its active members offer. -/
theorem mem_collectGroupRecipients {env : PeerEnv P} {db next : PeerDb P} {groupId : GroupId P}
    {group : GroupRecord P} {recipients : List P.DhPublic}
    (collected : db.collectGroupRecipients env groupId group = (next, .ok recipients)) :
    ∃ row, db.client.groups.lookup groupId = some row ∧ ∀ key, key ∈ recipients ↔
      db.OfferedIn env (row.roster.ensureInitialized group.descriptor.initAdmin) key := by
  have caches := ClientDb.groupsOnly_loadRoster env.client groupId group.descriptor.initAdmin
    db.client
  rw [collectGroupRecipients] at collected
  split at collected
  · cases collected
  · split at collected <;> rename_i loaded
    · cases collected
    · obtain ⟨row, listed, relisted⟩ := ClientDb.loadRoster_ok loaded
      refine ⟨row, listed, ?_⟩
      rw [loaded] at caches
      obtain ⟨groups, rfl⟩ := caches
      split at collected
      · cases collected
      · simp only [relisted] at collected
        have same : ∀ username ∈
            (row.roster.ensureInitialized group.descriptor.initAdmin).activeMembers,
            SameCached env.client.clock username db
              { db with client := { db.client with groups := groups } } :=
          fun _ _ => ⟨rfl, rfl, rfl, rfl⟩
        rcases collectFrom_spec env db (GroupRoster.nodup_activeMembers _) same with
          ⟨_, err, failed, _⟩ | ⟨_, keys, gathered, _, members⟩
        · simp only [failed] at collected
          cases collected
        · simp only [gathered] at collected
          split at collected
          · cases collected
          · cases collected
            simpa only [GroupRoster.mem_activeMembers, OfferedIn] using members

/-- Whatever the directory and the servers answer, a rekey is sealed for the keys which active
members offer and for no others, and a direct message for those which its addressee offers. -/
theorem recipients_exact (env : PeerEnv P) (db : PeerDb P) :
    (∀ groupId group next recipients,
      db.collectGroupRecipients env groupId group = (next, .ok recipients) →
        ∃ row, db.client.groups.lookup groupId = some row ∧ ∀ key, key ∈ recipients ↔
          db.OfferedIn env (row.roster.ensureInitialized group.descriptor.initAdmin) key) ∧
    ∀ target next peer recipients, getUserInfo env target db = (next, .ok peer) →
      recipientsFromPeer peer = .ok recipients →
        ∀ key, key ∈ recipients ↔ db.OffersKey env target key := by
  constructor
  · intro groupId group next recipients collected
    exact mem_collectGroupRecipients collected
  · intro target next peer recipients looked collected key
    have found : (getUserInfo env target db).2 = .ok peer := congrArg Prod.snd looked
    rw [recipientsFromPeer_ok collected]
    exact mem_collectRecipients_getUserInfo found

/-- The keys of a rekey for Alice and Bobby, and of a direct message to Bobby. -/
theorem recipients_exact_shared :
    (∃ next recipients, sharedDb.collectGroupRecipients (sharedEnv (.ok (some (deviceChain 2))))
        exampleGroup.id sharedGroup = (next, .ok recipients) ∧
      ∃ row, sharedDb.client.groups.lookup exampleGroup.id = some row ∧
        ∀ key, key ∈ recipients ↔
          sharedDb.OfferedIn (sharedEnv (.ok (some (deviceChain 2))))
            (row.roster.ensureInitialized sharedGroup.descriptor.initAdmin) key) ∧
    ∃ next peer recipients,
      getUserInfo (sharedEnv (.ok (some (deviceChain 2)))) bobby sharedDb = (next, .ok peer) ∧
        recipientsFromPeer peer = .ok recipients ∧
        ∀ key, key ∈ recipients ↔
          sharedDb.OffersKey (sharedEnv (.ok (some (deviceChain 2)))) bobby key := by
  have gathered : (sharedDb.collectGroupRecipients (sharedEnv (.ok (some (deviceChain 2))))
      exampleGroup.id sharedGroup).2 = .ok [aliceMedium, bobbyMedium] := by decide
  have looked : (getUserInfo (sharedEnv (.ok (some (deviceChain 2)))) bobby sharedDb).2 =
      .ok ⟨bobby, symbolicServer, deviceChain 2, deviceMediumPk 2 bobbyMedium⟩ := by rfl
  have keys : recipientsFromPeer (P := symbolic)
      ⟨bobby, symbolicServer, deviceChain 2, deviceMediumPk 2 bobbyMedium⟩ = .ok [bobbyMedium] := by
    decide
  exact ⟨⟨_, _, Prod.ext rfl gathered, (recipients_exact _ _).1 _ _ _ _ (Prod.ext rfl gathered)⟩,
    _, _, _, Prod.ext rfl looked, keys,
    (recipients_exact _ _).2 _ _ _ _ (Prod.ext rfl looked) keys⟩

end PeerDb
end Nullspace
