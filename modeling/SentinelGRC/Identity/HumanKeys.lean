import SentinelGRC.Connectors.EventIngest
import SentinelGRC.Governance.RouteTarget
import SentinelGRC.Identity.Tokens
import SentinelGRC.Ingestion.Authenticate
import SentinelGRC.Python.Decimal
import SentinelGRC.Store.Granted

/-!
The store of human identities. A user is created once, with a role, and a key is issued once,
to an active user, and revoked for good. A key opens the application to the holder of the
secret it was issued with, as that user and in that role, until its revocation; so every
operation of the core is by such a holder, whatever the request says.
-/

namespace SentinelGRC.Identity

open Python Json Store Transition Governance
open Connectors (compareDigest compareDigest_eq_true)
open Ingestion (matchesKeyId)

/-! ### The store -/

structure User where
  userId : Text
  role : Text
  active : Bool

structure ApiKey where
  keyId : Text
  userId : Text
  secretHash : Text
  active : Bool

structure HumanIdentityStore where
  users : Table User Text User.userId
  userApiKeys : Table ApiKey Text ApiKey.keyId

/-- `_hash`. -/
def hashSecret (H : Digest) (secret : Text) : Except PyError Text := do
  let bytes ← encodeUtf8 secret
  return H.hexdigest bytes

/-- The checks of `create_user`, and the row that it inserts. -/
def newUser (userId role : Text) : Except PyError User :=
  if !matchesKeyId userId || (roleNamed role).isNone then
    .error (.valueError (lit "user_id and supported role are required"))
  else .ok ⟨userId, role, true⟩

/-- The call that makes a user or a key, or that revokes a key. The secret is the one that
`secrets.token_urlsafe` draws. -/
inductive IdentityCall
  | createUser (userId role : Text)
  | issueApiKey (userId keyId secret : Text)
  | revokeKey (keyId : Text)

namespace HumanIdentityStore

variable (H : Digest) (store : HumanIdentityStore)

/-- `create_user`. -/
def createUser (userId role : Text) : HumanIdentityStore × Except PyError (Option Text) :=
  match newUser userId role with
  | .error e => (store, .error e)
  | .ok user =>
    match store.users.insert? user with
    | some users => ({ store with users }, .ok none)
    | none => (store, .error (.valueError (lit "user already exists")))

/-- The checks of `issue_api_key`, and the row that it inserts. -/
def newApiKey (userId keyId secret : Text) : Except PyError ApiKey :=
  if !matchesKeyId keyId then
    .error (.valueError (lit "key_id must contain only letters, numbers, dot, underscore or hyphen"))
  else if ¬ Scalar userId then .error .unicodeEncodeError
  else if !(store.users.find? userId).any User.active then
    .error (.valueError (lit "active user is required"))
  else do
    let secretHash ← hashSecret H secret
    return ⟨keyId, userId, secretHash, true⟩

/-- `issue_api_key`. -/
def issueApiKey (userId keyId secret : Text) : HumanIdentityStore × Except PyError (Option Text) :=
  match store.newApiKey H userId keyId secret with
  | .error e => (store, .error e)
  | .ok key =>
    match store.userApiKeys.insert? key with
    | some userApiKeys => ({ store with userApiKeys }, .ok (some secret))
    | none => (store, .error (.valueError (lit "key already exists")))

end HumanIdentityStore

def ApiKey.revoke (key : ApiKey) : ApiKey := { key with active := false }

theorem ApiKey.keyId_revoke (key : ApiKey) : key.revoke.keyId = key.keyId := rfl

namespace HumanIdentityStore

variable (H : Digest) (store : HumanIdentityStore)

/-- `revoke_key`. -/
def revokeKey (keyId : Text) : HumanIdentityStore × Except PyError (Option Text) :=
  if ¬ Scalar keyId then (store, .error .unicodeEncodeError)
  else ({ store with
    userApiKeys := store.userApiKeys.modify keyId ApiKey.revoke ApiKey.keyId_revoke }, .ok none)

/-- The row that `authenticate` selects: an active key with its active user. -/
def activeKey? (keyId : Text) : Option (User × ApiKey) := do
  let key ← store.userApiKeys.find? keyId
  let user ← store.users.find? key.userId
  if key.active && user.active then some (user, key) else none

/-- `authenticate`. -/
def authenticate (keyId secret : Text) : Except PyError ActorContext :=
  if ¬ Scalar keyId then .error .unicodeEncodeError
  else match store.activeKey? keyId with
    | none => .error (.permissionError (lit "invalid or revoked human API key"))
    | some (user, key) => do
      let secretHash ← hashSecret H secret
      let same ← compareDigest key.secretHash secretHash
      if !same then .error (.permissionError (lit "invalid or revoked human API key"))
      else actorContext user.userId user.role (lit "api_key")

end HumanIdentityStore

/-- The store over time. -/
def humanIdentity (H : Digest) :
    Machine HumanIdentityStore IdentityCall (Except PyError (Option Text)) where
  step store
    | .createUser userId role => store.createUser userId role
    | .issueApiKey userId keyId secret => store.issueApiKey H userId keyId secret
    | .revokeKey keyId => store.revokeKey keyId

/-! ### Behind the application -/

/-- What `handle` sees of an exception of `authenticate`. -/
def raisedByIdentity (keyId secret : Text) : PyError → Raised
  | .permissionError message => ⟨.authenticationError, message⟩
  | .valueError message => ⟨.valueError, message⟩
  | .unicodeEncodeError =>
    ⟨.valueError, encodeErrorText (if Scalar keyId then secret else keyId)⟩
  | _ => ⟨.other, []⟩

/-- The application in the mode that takes API keys. -/
def withApiKeys {F : Type} (app : Application F) (H : Digest) (store : HumanIdentityStore) :
    Application F :=
  { app with
    authentication := .apiKey fun keyId secret =>
      (store.authenticate H keyId secret).mapError (raisedByIdentity keyId secret) }

/-! ### Who holds a key -/

/-- A call of the run issued the key to the user, with a secret of this hash, or the store at
its start had it so; and it was not revoked since. -/
def KeyHeld (H : Digest) (store : HumanIdentityStore) (calls : List IdentityCall)
    (keyId userId secretHash : Text) : Prop :=
  (store.userApiKeys.find? keyId = some ⟨keyId, userId, secretHash, true⟩ ∧
      .revokeKey keyId ∉ calls) ∨
    ∃ earlier secret later, calls = earlier ++ .issueApiKey userId keyId secret :: later ∧
      (humanIdentity H).answer ((humanIdentity H).run store earlier)
        (.issueApiKey userId keyId secret) = .ok (some secret) ∧
      hashSecret H secret = .ok secretHash ∧ .revokeKey keyId ∉ later

/-- A call of the run created the user in the role, or the store at its start had an active
user of that role. -/
def UserKnown (H : Digest) (store : HumanIdentityStore) (calls : List IdentityCall)
    (userId role : Text) : Prop :=
  store.users.find? userId = some ⟨userId, role, true⟩ ∨
    ∃ earlier later, calls = earlier ++ .createUser userId role :: later ∧
      (humanIdentity H).answer ((humanIdentity H).run store earlier) (.createUser userId role) =
        .ok none

/-! ### Keys and users stand where they were put -/

variable {H : Digest} {store : HumanIdentityStore}

/-- Where a key stands, with its user and the hash of its secret as its rights. -/
def ApiKey.standing (key : ApiKey) : Standing (Text × Text) :=
  if key.active then .granted (key.userId, key.secretHash)
  else .withdrawn (key.userId, key.secretHash)

/-- Where a user stands, with the role as the right. -/
def User.standing (user : User) : Standing Text :=
  if user.active then .granted user.role else .withdrawn user.role

def keyStandings (store : HumanIdentityStore) : Standings Text (Text × Text) :=
  store.userApiKeys.standings ApiKey.standing

def userStandings (store : HumanIdentityStore) : Standings Text Text :=
  store.users.standings User.standing

/-- What a call does to the keys. -/
def keyEvent? (H : Digest) (store : HumanIdentityStore) :
    IdentityCall → Option (GrantEvent Text (Text × Text))
  | .createUser _ _ => none
  | .issueApiKey userId keyId secret =>
    match store.newApiKey H userId keyId secret with
    | .ok key => some (.grant key.keyId (key.userId, key.secretHash))
    | .error _ => none
  | .revokeKey keyId => if Scalar keyId then some (.withdraw keyId) else none

/-- What a call does to the users. -/
def userEvent? : IdentityCall → Option (GrantEvent Text Text)
  | .createUser userId role =>
    match newUser userId role with
    | .ok user => some (.grant user.userId user.role)
    | .error _ => none
  | .issueApiKey .. | .revokeKey _ => none

theorem newUser_eq_ok {userId role : Text} {user : User} (h : newUser userId role = .ok user) :
    user = ⟨userId, role, true⟩ := by
  obtain ⟨-, h⟩ := ite_error_eq_ok.mp h
  exact (Except.ok.inj h).symm

theorem newApiKey_eq_ok {userId keyId secret : Text} {key : ApiKey}
    (h : store.newApiKey H userId keyId secret = .ok key) :
    ∃ secretHash, hashSecret H secret = .ok secretHash ∧ key = ⟨keyId, userId, secretHash, true⟩ := by
  obtain ⟨-, h⟩ := ite_error_eq_ok.mp h
  obtain ⟨-, h⟩ := ite_error_eq_ok.mp h
  obtain ⟨-, h⟩ := ite_error_eq_ok.mp h
  obtain ⟨secretHash, hhash, h⟩ := bind_eq_ok.mp h
  exact ⟨secretHash, hhash, (Except.ok.inj h).symm⟩

theorem standing_revoke (key : ApiKey) : key.revoke.standing = key.standing.withdraw := by
  unfold ApiKey.standing
  cases key.active <;> rfl

theorem keyStandings_issue (store : HumanIdentityStore) {userId keyId secret : Text} {key : ApiKey}
    (h : store.newApiKey H userId keyId secret = .ok key) :
    keyStandings ((humanIdentity H).next store (.issueApiKey userId keyId secret)) =
      (keyStandings store).apply (.grant key.keyId (key.userId, key.secretHash)) := by
  obtain ⟨secretHash, -, rfl⟩ := newApiKey_eq_ok h
  cases hinsert : store.userApiKeys.insert? ⟨keyId, userId, secretHash, true⟩ with
  | none =>
    have hnext : (humanIdentity H).next store (.issueApiKey userId keyId secret) = store := by
      simp only [Machine.next, humanIdentity, HumanIdentityStore.issueApiKey, h, hinsert]
    rw [hnext]
    exact Table.standings_taken hinsert (userId, secretHash)
  | some userApiKeys =>
    have hnext : (humanIdentity H).next store (.issueApiKey userId keyId secret) =
        { store with userApiKeys } := by
      simp only [Machine.next, humanIdentity, HumanIdentityStore.issueApiKey, h, hinsert]
    rw [hnext]
    exact Table.standings_insert rfl hinsert

theorem userStandings_create (store : HumanIdentityStore) {userId role : Text} {user : User}
    (h : newUser userId role = .ok user) :
    userStandings ((humanIdentity H).next store (.createUser userId role)) =
      (userStandings store).apply (.grant user.userId user.role) := by
  obtain rfl := newUser_eq_ok h
  cases hinsert : store.users.insert? ⟨userId, role, true⟩ with
  | none =>
    have hnext : (humanIdentity H).next store (.createUser userId role) = store := by
      simp only [Machine.next, humanIdentity, HumanIdentityStore.createUser, h, hinsert]
    rw [hnext]
    exact Table.standings_taken hinsert role
  | some users =>
    have hnext : (humanIdentity H).next store (.createUser userId role) = { store with users } := by
      simp only [Machine.next, humanIdentity, HumanIdentityStore.createUser, h, hinsert]
    rw [hnext]
    exact Table.standings_insert rfl hinsert

theorem userApiKeys_createUser (store : HumanIdentityStore) (userId role : Text) :
    (store.createUser userId role).1.userApiKeys = store.userApiKeys := by
  unfold HumanIdentityStore.createUser
  cases newUser userId role with
  | error e => rfl
  | ok user =>
    simp only
    cases store.users.insert? user <;> rfl

theorem users_issueApiKey (store : HumanIdentityStore) (userId keyId secret : Text) :
    (store.issueApiKey H userId keyId secret).1.users = store.users := by
  unfold HumanIdentityStore.issueApiKey
  cases store.newApiKey H userId keyId secret with
  | error e => rfl
  | ok key =>
    simp only
    cases store.userApiKeys.insert? key <;> rfl

theorem users_revokeKey (store : HumanIdentityStore) (keyId : Text) :
    (store.revokeKey keyId).1.users = store.users := by
  unfold HumanIdentityStore.revokeKey
  split_ifs <;> rfl

theorem humanIdentity_grants_keys : (humanIdentity H).Grants keyStandings (keyEvent? H) where
  next_of_event := by
    intro store call event hevent
    cases call with
    | createUser userId role => cases hevent
    | issueApiKey userId keyId secret =>
      cases hkey : store.newApiKey H userId keyId secret with
      | error e => simp [keyEvent?, hkey] at hevent
      | ok key =>
        obtain rfl : .grant key.keyId (key.userId, key.secretHash) = event := by
          simpa [keyEvent?, hkey] using hevent
        exact keyStandings_issue store hkey
    | revokeKey keyId =>
      obtain ⟨hscalar, rfl⟩ : Scalar keyId ∧ GrantEvent.withdraw keyId = event := by
        simpa [keyEvent?] using hevent
      have hnext : ((humanIdentity H).next store (.revokeKey keyId)).userApiKeys =
          store.userApiKeys.modify keyId ApiKey.revoke ApiKey.keyId_revoke := by
        simp only [Machine.next, humanIdentity, HumanIdentityStore.revokeKey, hscalar,
          not_true_eq_false, if_false]
      rw [keyStandings, hnext]
      exact Table.standings_modify _ standing_revoke keyId
  next_of_none := by
    intro store call hevent
    cases call with
    | createUser userId role =>
      exact congrArg (Table.standings ApiKey.standing) (userApiKeys_createUser store userId role)
    | issueApiKey userId keyId secret =>
      cases hkey : store.newApiKey H userId keyId secret with
      | error e =>
        simp only [Machine.next, humanIdentity, HumanIdentityStore.issueApiKey, hkey]
      | ok key => simp [keyEvent?, hkey] at hevent
    | revokeKey keyId =>
      have hscalar : ¬ Scalar keyId := by simpa [keyEvent?] using hevent
      simp only [Machine.next, humanIdentity, HumanIdentityStore.revokeKey, hscalar,
        not_false_eq_true, if_true]

theorem humanIdentity_grants_users :
    (humanIdentity H).Grants userStandings fun _ call => userEvent? call where
  next_of_event := by
    intro store call event hevent
    cases call with
    | createUser userId role =>
      cases huser : newUser userId role with
      | error e => simp [userEvent?, huser] at hevent
      | ok user =>
        obtain rfl : .grant user.userId user.role = event := by simpa [userEvent?, huser] using hevent
        exact userStandings_create store huser
    | issueApiKey userId keyId secret => cases hevent
    | revokeKey keyId => cases hevent
  next_of_none := by
    intro store call hevent
    cases call with
    | createUser userId role =>
      cases huser : newUser userId role with
      | error e => simp only [Machine.next, humanIdentity, HumanIdentityStore.createUser, huser]
      | ok user => simp [userEvent?, huser] at hevent
    | issueApiKey userId keyId secret =>
      exact congrArg (Table.standings User.standing) (users_issueApiKey store userId keyId secret)
    | revokeKey keyId =>
      exact congrArg (Table.standings User.standing) (users_revokeKey store keyId)

/-! ### Who is let in -/

theorem find?_of_granted {k userId secretHash : Text} :
    keyStandings store k = some (.granted (userId, secretHash)) ↔
      store.userApiKeys.find? k = some ⟨k, userId, secretHash, true⟩ := by
  rw [keyStandings, Table.standings_eq_some]
  constructor
  · rintro ⟨key, hkey, hstanding⟩
    obtain ⟨-, hid⟩ := Table.find?_eq_some.mp hkey
    obtain ⟨id, user, hash, active⟩ := key
    obtain rfl : id = k := hid
    cases active with
    | false => simp [ApiKey.standing] at hstanding
    | true =>
      obtain ⟨rfl, rfl⟩ : user = userId ∧ hash = secretHash := by
        simpa [ApiKey.standing] using hstanding
      exact hkey
  · intro h
    exact ⟨_, h, rfl⟩

theorem find?_of_known {userId role : Text} : userStandings store userId = some (.granted role) ↔
    store.users.find? userId = some ⟨userId, role, true⟩ := by
  rw [userStandings, Table.standings_eq_some]
  constructor
  · rintro ⟨user, huser, hstanding⟩
    obtain ⟨-, hid⟩ := Table.find?_eq_some.mp huser
    obtain ⟨id, other, active⟩ := user
    obtain rfl : id = userId := hid
    cases active with
    | false => simp [User.standing] at hstanding
    | true =>
      obtain rfl : other = role := by simpa [User.standing] using hstanding
      exact huser
  · intro h
    exact ⟨_, h, rfl⟩

theorem keeps_key_iff {calls : List IdentityCall} {k : Text} (hk : Scalar k) :
    (humanIdentity H).Keeps (keyEvent? H) k store calls ↔ .revokeKey k ∉ calls := by
  induction calls generalizing store with
  | nil => simp [Machine.Keeps, Machine.Along]
  | cons call calls ih =>
    have hhead : keyEvent? H store call ≠ some (.withdraw k) ↔ call ≠ .revokeKey k := by
      cases call with
      | createUser userId role => simp [keyEvent?]
      | issueApiKey userId keyId secret =>
        cases hkey : store.newApiKey H userId keyId secret <;> simp [keyEvent?, hkey]
      | revokeKey keyId =>
        simp only [keyEvent?, ne_eq, Option.ite_none_right_eq_some, Option.some.injEq,
          GrantEvent.withdraw.injEq, IdentityCall.revokeKey.injEq, not_iff_not]
        constructor
        · exact fun h => h.2
        · rintro rfl
          exact ⟨hk, rfl⟩
    rw [Machine.Keeps, Machine.Along, hhead]
    have hrest := @ih ((humanIdentity H).next store call)
    rw [Machine.Keeps] at hrest
    rw [hrest, List.mem_cons, not_or, ne_comm]

theorem keeps_user {calls : List IdentityCall} {k : Text} :
    (humanIdentity H).Keeps (fun _ call => userEvent? call) k store calls := by
  rw [Machine.keeps_iff_forall]
  intro call _
  cases call with
  | createUser userId role => cases huser : newUser userId role <;> simp [userEvent?, huser]
  | issueApiKey userId keyId secret => simp [userEvent?]
  | revokeKey keyId => simp [userEvent?]

/-- A key is issued when it passes the checks and is new. -/
theorem answer_issueApiKey {userId keyId secret : Text} :
    (humanIdentity H).answer store (.issueApiKey userId keyId secret) = .ok (some secret) ↔
      ∃ key, store.newApiKey H userId keyId secret = .ok key ∧ keyStandings store key.keyId = none := by
  simp only [Machine.answer, humanIdentity, HumanIdentityStore.issueApiKey, keyStandings,
    Table.standings_eq_none]
  cases hkey : store.newApiKey H userId keyId secret with
  | error e => simp
  | ok key =>
    simp only [Except.ok.injEq, exists_eq_left']
    cases hinsert : store.userApiKeys.insert? key with
    | none =>
      obtain ⟨q, hq⟩ := Table.insert?_eq_none.mp hinsert
      simp [hq]
    | some userApiKeys => simp [(Table.insert?_eq_some.mp hinsert).1]

theorem answer_createUser {userId role : Text} :
    (humanIdentity H).answer store (.createUser userId role) = .ok none ↔
      ∃ user, newUser userId role = .ok user ∧ userStandings store user.userId = none := by
  simp only [Machine.answer, humanIdentity, HumanIdentityStore.createUser, userStandings,
    Table.standings_eq_none]
  cases huser : newUser userId role with
  | error e => simp
  | ok user =>
    simp only [Except.ok.injEq, exists_eq_left']
    cases hinsert : store.users.insert? user with
    | none =>
      obtain ⟨q, hq⟩ := Table.insert?_eq_none.mp hinsert
      simp [hq]
    | some users => simp [(Table.insert?_eq_some.mp hinsert).1]

theorem keyHeld_iff {calls : List IdentityCall} {k userId secretHash : Text} (hk : Scalar k) :
    keyStandings ((humanIdentity H).run store calls) k = some (.granted (userId, secretHash)) ↔
      KeyHeld H store calls k userId secretHash := by
  rw [humanIdentity_grants_keys.run_iff, keeps_key_iff hk, find?_of_granted, KeyHeld]
  refine or_congr_right ?_
  constructor
  · rintro ⟨earlier, call, later, hcalls, hevent, hnone, hkeeps⟩
    cases call with
    | createUser userId role => cases hevent
    | revokeKey keyId => simp [keyEvent?] at hevent
    | issueApiKey user keyId secret =>
      cases hkey : ((humanIdentity H).run store earlier).newApiKey H user keyId secret with
      | error e => simp [keyEvent?, hkey] at hevent
      | ok key =>
        obtain ⟨hash, hhash, rfl⟩ := newApiKey_eq_ok hkey
        obtain ⟨rfl, rfl, rfl⟩ : keyId = k ∧ user = userId ∧ hash = secretHash := by
          simpa [keyEvent?, hkey] using hevent
        exact ⟨earlier, secret, later, hcalls, answer_issueApiKey.mpr ⟨_, hkey, hnone⟩, hhash,
          (keeps_key_iff hk).mp hkeeps⟩
  · rintro ⟨earlier, secret, later, hcalls, hanswer, hhash, hlater⟩
    obtain ⟨key, hkey, hnone⟩ := answer_issueApiKey.mp hanswer
    obtain ⟨hash, hhash', rfl⟩ := newApiKey_eq_ok hkey
    obtain rfl : secretHash = hash := Except.ok.inj (hhash.symm.trans hhash')
    exact ⟨earlier, _, later, hcalls, by simp [keyEvent?, hkey], hnone, (keeps_key_iff hk).mpr hlater⟩

theorem userKnown_iff {calls : List IdentityCall} {userId role : Text} :
    userStandings ((humanIdentity H).run store calls) userId = some (.granted role) ↔
      UserKnown H store calls userId role := by
  rw [humanIdentity_grants_users.run_iff, find?_of_known, UserKnown]
  refine or_congr (and_iff_left keeps_user) ?_
  constructor
  · rintro ⟨earlier, call, later, hcalls, hevent, hnone, -⟩
    cases call with
    | issueApiKey user keyId secret => cases hevent
    | revokeKey keyId => cases hevent
    | createUser user found =>
      cases huser : newUser user found with
      | error e => simp [userEvent?, huser] at hevent
      | ok row =>
        obtain rfl := newUser_eq_ok huser
        obtain ⟨rfl, rfl⟩ : user = userId ∧ found = role := by simpa [userEvent?, huser] using hevent
        exact ⟨earlier, later, hcalls, answer_createUser.mpr ⟨_, huser, hnone⟩⟩
  · rintro ⟨earlier, later, hcalls, hanswer⟩
    obtain ⟨user, huser, hnone⟩ := answer_createUser.mp hanswer
    obtain rfl := newUser_eq_ok huser
    exact ⟨earlier, _, later, hcalls, by simp [userEvent?, huser], hnone, keeps_user⟩

theorem actorContext_of_nonblank {actorId role authMethod : Text} {actor : ActorContext}
    (hmethod : blank authMethod = false) : actorContext actorId role authMethod = .ok actor ↔
      actorId = actor.actorId ∧ role = actor.role.text ∧ actor.authMethod = authMethod := by
  unfold actorContext
  obtain ⟨id, found, method, hid, hm⟩ := actor
  constructor
  · intro h
    split_ifs at h
    cases hrole : roleNamed role with
    | none => simp [hrole] at h
    | some other =>
      obtain ⟨rfl, rfl, rfl⟩ : actorId = id ∧ other = found ∧ authMethod = method := by
        simpa [hrole] using h
      exact ⟨rfl, roleNamed_eq_some.mp hrole, rfl⟩
  · rintro ⟨rfl, rfl, rfl⟩
    simp only [dif_pos hid, roleNamed_text, dif_pos hm]

theorem ascii_hexText (bytes : Bytes) : ((hexText bytes).all fun c => c.val < 128) = true := by
  rw [List.all_eq_true]
  intro c hc
  have hhex := isLowerHex_hexText c hc
  simp only [isLowerHex, Bool.or_eq_true, Bool.and_eq_true, decide_eq_true_iff] at hhex
  rw [decide_eq_true_iff]
  omega

theorem activeKey?_eq_some {keyId : Text} {user : User} {key : ApiKey} :
    store.activeKey? keyId = some (user, key) ↔
      store.userApiKeys.find? keyId = some key ∧ store.users.find? key.userId = some user ∧
        key.active = true ∧ user.active = true := by
  simp only [HumanIdentityStore.activeKey?, Option.bind_eq_bind, Option.bind_eq_some_iff,
    Option.ite_none_right_eq_some, Bool.and_eq_true, Option.some.injEq, Prod.mk.injEq]
  constructor
  · rintro ⟨key, hkey, user, huser, hactive, rfl, rfl⟩
    exact ⟨hkey, huser, hactive⟩
  · rintro ⟨hkey, huser, hactive⟩
    exact ⟨key, hkey, user, huser, hactive, rfl, rfl⟩

theorem authenticate_eq_ok {keyId secret : Text} {actor : ActorContext} :
    store.authenticate H keyId secret = .ok actor ↔ Scalar keyId ∧
      ∃ secretHash, hashSecret H secret = .ok secretHash ∧
        keyStandings store keyId = some (.granted (actor.actorId, secretHash)) ∧
        userStandings store actor.actorId = some (.granted actor.role.text) ∧
        actor.authMethod = lit "api_key" := by
  have hmethod : blank (lit "api_key") = false := by decide
  simp only [find?_of_granted, find?_of_known]
  unfold HumanIdentityStore.authenticate
  by_cases hk : Scalar keyId
  swap
  · simp [hk]
  rw [if_neg (not_not.mpr hk)]
  simp only [hk, true_and]
  constructor
  · intro h
    cases hactive : store.activeKey? keyId with
    | none => simp [hactive] at h
    | some row =>
      obtain ⟨user, key⟩ := row
      rw [hactive] at h
      obtain ⟨secretHash, hhash, h⟩ := bind_eq_ok.mp h
      obtain ⟨same, hsame, h⟩ := bind_eq_ok.mp h
      obtain ⟨htrue, h⟩ := ite_error_eq_ok.mp h
      obtain rfl : same = true := by simpa using htrue
      obtain ⟨hid, hrole, hauth⟩ := (actorContext_of_nonblank hmethod).mp h
      obtain ⟨hkey, huser, hkeyActive, huserActive⟩ := activeKey?_eq_some.mp hactive
      obtain ⟨-, hkeyId⟩ := Table.find?_eq_some.mp hkey
      obtain ⟨-, huserId⟩ := Table.find?_eq_some.mp huser
      have hequal := compareDigest_eq_true hsame
      obtain ⟨id, owner, hash, active⟩ := key
      obtain ⟨ownerId, role, userActive⟩ := user
      simp only at hkeyId huserId hkeyActive huserActive hequal hid hrole
      subst hkeyId huserId hkeyActive huserActive hequal hid hrole
      exact ⟨_, hhash, hkey, huser, hauth⟩
  · rintro ⟨secretHash, hhash, hkey, huser, hauth⟩
    have hactive := activeKey?_eq_some.mpr ⟨hkey, huser, rfl, rfl⟩
    obtain ⟨bytes, -, hbytes⟩ := bind_eq_ok.mp hhash
    obtain rfl := Except.ok.inj hbytes
    have hascii : ((H.hexdigest bytes).all fun c => c.val < 128) = true := ascii_hexText _
    have hsame : compareDigest (H.hexdigest bytes) (H.hexdigest bytes) = .ok true := by
      rw [compareDigest, hascii]
      simp
    rw [hactive]
    simp only [hhash]
    change (compareDigest (H.hexdigest bytes) (H.hexdigest bytes) >>= _) = _
    rw [hsame]
    exact (actorContext_of_nonblank hmethod).mpr ⟨rfl, rfl, hauth⟩

/-- A secret opens a key exactly when it has the hash of the secret that the key was issued with
and the key was not revoked since; the actor is the user it was issued to, in the role that the
user was created with. -/
theorem authenticate_run_iff (H : Digest) (store : HumanIdentityStore) (calls : List IdentityCall)
    (keyId secret : Text) (actor : ActorContext) :
    ((humanIdentity H).run store calls).authenticate H keyId secret = .ok actor ↔ Scalar keyId ∧
      ∃ secretHash, hashSecret H secret = .ok secretHash ∧
        KeyHeld H store calls keyId actor.actorId secretHash ∧
        UserKnown H store calls actor.actorId actor.role.text ∧ actor.authMethod = lit "api_key" := by
  rw [authenticate_eq_ok]
  refine and_congr_right fun hk => ?_
  simp only [keyHeld_iff hk, userKnown_iff]

/-! ### Whose operations the application runs -/

section Operations

variable {F : Type} [PyFloat F] {app : Application F} {U : UnicodeTables} {body : Fields F}

omit [PyFloat F] in
/-- A call that runs an operation runs it as this actor. -/
def RunsAs (actor : ActorContext) (call : CoreCall F) : Prop :=
  ∀ other operation, call.operation? = some (other, operation) → other = actor

theorem runsAs_call (action : ApiAction) (actor : ActorContext) (findingId : Text) :
    Returns (RunsAs actor) (action.call U actor body findingId) := by
  have hone : ∀ {call : CoreCall F} {operation : Operation},
      call.operation? = some (actor, operation) → RunsAs actor call := by
    intro call operation h other operation' h'
    rw [h] at h'
    cases h'
    rfl
  have hread : ∀ {call : CoreCall F}, call.operation? = none → RunsAs actor call := by
    intro call h other operation h'
    rw [h] at h'
    cases h'
  cases action with
  | list | get | report => exact returns_ok (hread rfl)
  | create =>
    exact .bind fun _ _ => .bind fun _ _ => .bind fun _ _ => .bind fun _ _ => .bind fun _ _ =>
      returns_ok (hone rfl)
  | assess | evidence => exact .bind fun _ _ => .bind fun _ _ => returns_ok (hone rfl)
  | propose =>
    refine .bind fun _ _ => .bind fun _ _ => .bind fun _ _ => returns_ok ?_
    cases get body (lit "due_date") with
    | null | str => exact hone rfl
    | bool | int | float | arr | obj => exact hread rfl
  | approve => exact .bind fun _ _ => .bind fun _ _ => returns_ok (hone rfl)
  | start | close => exact .bind fun _ _ => returns_ok (hone rfl)
  | verify =>
    simp only [ApiAction.call]
    split
    · exact returns_error _
    · exact .bind fun _ _ => returns_ok (hone rfl)
    · exact returns_error _

theorem runsAs_dispatchActor (action : Text) (actor : ActorContext) :
    Returns (RunsAs actor) (dispatchActor U action actor body) := by
  rw [dispatchActor]
  split_ifs
  · exact returns_error _
  · refine .bind fun findingId _ => ?_
    split
    · exact runsAs_call _ actor findingId
    · exact returns_error _

omit [PyFloat F] in
theorem mem_calls_publicResponse {method path : Text} {handled : Handled F} {call : CoreCall F}
    (h : app.publicResponse method path = some handled) (hcall : call ∈ handled.calls) :
    call.operation? = none := by
  unfold Application.publicResponse at h
  split_ifs at h
  · obtain rfl := Option.some.inj h
    cases hcall
  · obtain rfl := Option.some.inj h
    obtain rfl := List.mem_singleton.mp hcall
    rfl

/-- A request dispatches for the actor of its headers, whatever its method. -/
theorem dispatched_of_request {method bearer action : Text} {headers : List (Text × Text)}
    {bytes : Bytes} {payload : Fields F} {call : CoreCall F}
    (h : app.request method headers bytes bearer action payload = .ok call) :
    ∃ fields actor, app.authenticate headers bearer = .ok actor ∧
      dispatchActor app.tables.toUnicodeTables action actor fields = .ok call := by
  rw [Application.request] at h
  split_ifs at h
  all_goals
    obtain ⟨fields, -, h⟩ := bind_eq_ok.mp h
    obtain ⟨actor, hactor, h⟩ := bind_eq_ok.mp h
    exact ⟨fields, actor, hactor, mapError_eq_ok.mp h⟩

/-- An operation is run only after the actor was authenticated from the headers. -/
theorem authenticated_of_operation {r : Request} {call : CoreCall F} {actor : ActorContext}
    {operation : Operation} (hcall : call ∈ (app.handle r).calls)
    (hoperation : call.operation? = some (actor, operation)) :
    ∃ bearer, bearer? app.tables r.headers = some bearer ∧
      app.authenticate r.headers bearer = .ok actor := by
  unfold Application.handle at hcall
  split_ifs at hcall
  · cases hcall
  simp only at hcall
  cases hpublic : app.publicResponse (app.tables.upper r.method) r.path with
  | some handled =>
    rw [hpublic] at hcall
    rw [mem_calls_publicResponse hpublic hcall] at hoperation
    cases hoperation
  | none =>
    rw [hpublic] at hcall
    simp only at hcall
    split_ifs at hcall
    · cases hcall
    cases hbearer : bearer? app.tables r.headers with
    | none =>
      rw [hbearer] at hcall
      cases hcall
    | some bearer =>
      rw [hbearer] at hcall
      simp only at hcall
      cases hroute : resolveRoute (F := F) (app.tables.upper r.method) r.path with
      | none =>
        rw [hroute] at hcall
        cases hcall
      | some route =>
        obtain ⟨action, payload⟩ := route
        rw [hroute] at hcall
        have hrequest : app.request (app.tables.upper r.method) r.headers r.body bearer action payload =
            .ok call := mem_calls_respond.mp hcall
        obtain ⟨fields, other, hother, hdispatch⟩ := dispatched_of_request hrequest
        obtain rfl := runsAs_dispatchActor action other call hdispatch actor operation hoperation
        exact ⟨bearer, rfl, hother⟩

/-- Whatever a request says of its actor, every operation that it runs is by the user to whom the
presented key was issued, in the role that the user was created with: the bearer secret has the
hash of the issued one, and the key was not revoked before the request. -/
theorem operation_by_key_holder (H : Digest) (store : HumanIdentityStore)
    (calls : List IdentityCall) (app : Application F) (r : Request) {call : CoreCall F}
    {actor : ActorContext} {operation : Operation}
    (hcall : call ∈ ((withApiKeys app H ((humanIdentity H).run store calls)).handle r).calls)
    (hoperation : call.operation? = some (actor, operation)) :
    ∃ secret secretHash, bearer? app.tables r.headers = some secret ∧
      hashSecret H secret = .ok secretHash ∧
      KeyHeld H store calls ((header? app.tables r.headers (lit "x-api-key-id")).getD [])
        actor.actorId secretHash ∧
      UserKnown H store calls actor.actorId actor.role.text ∧ actor.authMethod = lit "api_key" := by
  obtain ⟨secret, hsecret, hactor⟩ := authenticated_of_operation hcall hoperation
  obtain ⟨-, secretHash, hhash, hheld⟩ :=
    (authenticate_run_iff H store calls _ secret actor).mp (mapError_eq_ok.mp hactor)
  exact ⟨secret, secretHash, hsecret, hhash, hheld⟩

end Operations

/-! ### A key in use -/

/-- An approver and her key, from an empty store. -/
def keyIssued : List IdentityCall :=
  [.createUser (lit "alice") (lit "approver"),
    .issueApiKey (lit "alice") (lit "key-1") (lit "drawn-secret")]

def keyHolder : ActorContext := ⟨lit "alice", .approver, lit "api_key", by decide, by decide⟩

def emptyStore : HumanIdentityStore := ⟨Table.empty, Table.empty⟩

def keyFields : Fields Tick := [(lit "reason", .str (lit "done"))]

/-- She closes the finding `F-1`. -/
def keyRequest : Request :=
  { closeRequest keyFields with
    headers := [(lit "Authorization", lit "Bearer drawn-secret"), (lit "X-API-Key-Id", lit "key-1")] }

theorem bearer?_keyRequest : bearer? signedIn.tables keyRequest.headers = some (lit "drawn-secret") := by
  change bearer? signedIn.tables
    [(lit "Authorization", lit "Bearer drawn-secret"), (lit "X-API-Key-Id", lit "key-1")] = _
  decide +kernel

theorem header?_keyRequest :
    header? signedIn.tables keyRequest.headers (lit "x-api-key-id") = some (lit "key-1") := by
  change header? signedIn.tables
    [(lit "Authorization", lit "Bearer drawn-secret"), (lit "X-API-Key-Id", lit "key-1")] _ = _
  decide +kernel

theorem mem_calls_keyRequest
    (h : store.authenticate H (lit "key-1") (lit "drawn-secret") = .ok keyHolder) :
    CoreCall.close (lit "F-1") keyHolder (lit "done") ∈
      ((withApiKeys signedIn H store).handle keyRequest).calls := by
  have hpath : keyRequest.path = findingPath (lit "F-1") (lit "close") := path_closeRequest keyFields
  have hactor : (withApiKeys signedIn H store).authenticate keyRequest.headers (lit "drawn-secret") =
      .ok keyHolder := by
    simp only [withApiKeys, Application.authenticate, header?_keyRequest, Option.getD_some, h]
    rfl
  have hsame : keyRequest.body = (closeRequest keyFields).body := by rw [keyRequest]
  have hbody : decodeBody keyRequest.body = .ok (sortDict keyFields) := by
    rw [hsame]
    exact decodeBody_closeRequest (by decide +kernel) (by decide) (by decide +kernel)
  have hsize : keyRequest.body.length ≤ maxRequestBodyBytes := by decide +kernel
  have hbearer : bearer? (withApiKeys signedIn H store).tables keyRequest.headers =
      some (lit "drawn-secret") := bearer?_keyRequest
  rw [calls_handle rfl hpath not_slash_closeRequest.1 not_slash_closeRequest.2 hbearer hactor hbody]
  refine ⟨hsize, ?_⟩
  rfl

theorem hashSecret_drawn : hashSecret sha256 (lit "drawn-secret") =
    .ok (sha256.hexdigest ((lit "drawn-secret").map (UInt8.ofNat ·.val))) := by
  have hbytes : encodeUtf8 (lit "drawn-secret") =
      .ok ((lit "drawn-secret").map (UInt8.ofNat ·.val)) := by decide +kernel
  rw [hashSecret, hbytes]
  rfl

theorem authenticate_keyHolder :
    ((humanIdentity sha256).run emptyStore keyIssued).authenticate sha256 (lit "key-1")
      (lit "drawn-secret") = .ok keyHolder := by
  have huser : newUser (lit "alice") (lit "approver") = .ok ⟨lit "alice", lit "approver", true⟩ :=
    if_neg (by decide +kernel)
  have hknown : UserKnown sha256 emptyStore keyIssued (lit "alice") (lit "approver") :=
    .inr ⟨[], _, rfl, answer_createUser.mpr ⟨_, huser, rfl⟩⟩
  have hkey : ((humanIdentity sha256).run emptyStore [.createUser (lit "alice") (lit "approver")]).newApiKey
      sha256 (lit "alice") (lit "key-1") (lit "drawn-secret") = .ok ⟨lit "key-1", lit "alice",
        sha256.hexdigest ((lit "drawn-secret").map (UInt8.ofNat ·.val)), true⟩ := by
    unfold HumanIdentityStore.newApiKey
    rw [hashSecret_drawn]
    rfl
  have hheld : KeyHeld sha256 emptyStore keyIssued (lit "key-1") (lit "alice")
      (sha256.hexdigest ((lit "drawn-secret").map (UInt8.ofNat ·.val))) :=
    .inr ⟨[.createUser (lit "alice") (lit "approver")], lit "drawn-secret", [], rfl,
      answer_issueApiKey.mpr ⟨_, hkey, by rfl⟩, hashSecret_drawn, List.not_mem_nil⟩
  exact (authenticate_run_iff sha256 emptyStore keyIssued _ _ keyHolder).mpr
    ⟨scalar_lit _, _, hashSecret_drawn, hheld, hknown, rfl⟩

theorem operation_by_key_holder_close :
    KeyHeld sha256 emptyStore keyIssued (lit "key-1") (lit "alice")
      (sha256.hexdigest ((lit "drawn-secret").map (UInt8.ofNat ·.val))) ∧
    UserKnown sha256 emptyStore keyIssued (lit "alice") (lit "approver") := by
  obtain ⟨secret, secretHash, hsecret, hhash, hheld, hknown, -⟩ :=
    operation_by_key_holder sha256 emptyStore keyIssued signedIn keyRequest
      (mem_calls_keyRequest authenticate_keyHolder) rfl
  obtain rfl := Option.some.inj (bearer?_keyRequest.symm.trans hsecret)
  obtain rfl := Except.ok.inj (hashSecret_drawn.symm.trans hhash)
  rw [header?_keyRequest] at hheld
  exact ⟨hheld, hknown⟩

end SentinelGRC.Identity
