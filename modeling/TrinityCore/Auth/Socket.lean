import TrinityCore.Lib.Run

set_option autoImplicit false

/-!
The command handlers of one `AuthSocket` (`AuthSocket.cpp`) over the login database.

SRP6 is idealised. A logon proof matches when the client computed it from the password
behind the verifier and salt that the socket holds, and both sides then share the new
session key; a reconnect proof matches when the client knows the session key that the
socket holds. Everything else follows the handlers: which fields of the socket each
branch writes, in which order, and which rows of the database.
-/

namespace TrinityCore.Auth

/-- A session key as the modelled client sees it: the zero of a fresh socket, a key the
client has agreed on in a matching proof of its own, or a key it does not know. -/
inductive Key where
  | zero
  | shared (n : Nat)
  | other (n : Nat)
  deriving DecidableEq, Repr

def Key.isShared : Key → Bool
  | .shared _ => true
  | _ => false

inductive AuthResult where
  | success
  | failBanned
  | failUnknownAccount
  | failVersionInvalid
  | failSuspended
  | failLockedEnforced
  | failUnlockableLock
  deriving DecidableEq, Repr

inductive ExpansionFlag where
  | noValid
  | preBC
  | postBC
  deriving DecidableEq, Repr

def postBcAcceptedClientBuilds : List Nat :=
  [15595,14545,13623,13930,12340,11723,11403,11159,10505,9947,8606]

def preBcAcceptedClientBuilds : List Nat := [6141,6005,5875]

def expVersion (build : Nat) : ExpansionFlag :=
  if postBcAcceptedClientBuilds.contains build then .postBC
  else if preBcAcceptedClientBuilds.contains build then .preBC
  else .noValid

def secAdministrator : Nat := 3

def localeNames : List String :=
  ["enUS","koKR","frFR","deDE","zhCN","zhTW","esES","esMX","ruRU"]

def getLocaleByName (name : String) : Nat :=
  if localeNames.contains name then localeNames.idxOf name else 0

/-- A row of `account` joined with `account_access`. `vs` is missing when the stored
strings do not have the full length. -/
structure Account where
  id : Nat
  username : String
  shaPassHash : String
  sessionkey : Key
  vs : Option (Nat × Nat)
  tokenKey : String
  locked : Nat
  lockCountry : String
  lastIp : String
  gmlevel : Nat
  failedLogins : Nat
  locale : Nat
  os : String
  deriving DecidableEq, Repr

structure AccountBan where
  id : Nat
  bandate : Nat
  unbandate : Nat
  active : Bool
  deriving DecidableEq, Repr

structure IpBan where
  ip : String
  bandate : Nat
  unbandate : Nat
  deriving DecidableEq, Repr

/-- `collate` is the sort key of a name under the collation of `account.username`: the
database takes two names for the same when their keys are equal, whatever their spelling. -/
structure LoginDatabase where
  accounts : List Account
  accountBanned : List AccountBan
  ipBanned : List IpBan
  ip2nation : String → Option String
  collate : String → String

def LoginDatabase.findAccount (db : LoginDatabase) (name : String) : Option Account :=
  db.accounts.find? (fun a => db.collate a.username == db.collate name)

def LoginDatabase.updateAccount (db : LoginDatabase) (name : String) (f : Account → Account) :
    LoginDatabase :=
  { db with
    accounts := db.accounts.map (fun a =>
      if db.collate a.username == db.collate name then f a else a) }

def LoginDatabase.updLogonProof (db : LoginDatabase) (key : Key) (ip : String) (locale : Nat)
    (os name : String) : LoginDatabase :=
  db.updateAccount name (fun a =>
    { a with sessionkey := key, lastIp := ip, locale := locale, failedLogins := 0, os := os })

def LoginDatabase.updVS (db : LoginDatabase) (v s : Nat) (name : String) : LoginDatabase :=
  db.updateAccount name (fun a => { a with vs := some (v,s) })

def LoginDatabase.updFailedLogins (db : LoginDatabase) (name : String) : LoginDatabase :=
  db.updateAccount name (fun a => { a with failedLogins := a.failedLogins+1 })

def LoginDatabase.delExpiredIpBans (db : LoginDatabase) (now : Nat) : LoginDatabase :=
  let expired := fun b : IpBan => b.unbandate != b.bandate && b.unbandate ≤ now
  { db with ipBanned := db.ipBanned.filter (fun b => !expired b) }

def LoginDatabase.updExpiredAccountBans (db : LoginDatabase) (now : Nat) : LoginDatabase :=
  let expire := fun b : AccountBan =>
    if b.active && b.unbandate != b.bandate && b.unbandate ≤ now then { b with active := false }
    else b
  { db with accountBanned := db.accountBanned.map expire }

def LoginDatabase.ipIsBanned (db : LoginDatabase) (ip : String) : Bool :=
  db.ipBanned.any (fun b => b.ip == ip)

def LoginDatabase.selAccountBanned (db : LoginDatabase) (id : Nat) : Option AccountBan :=
  db.accountBanned.find? (fun b => b.id == id && b.active)

/-- The IP or country lock of an account; the answer is the code of the rejection. -/
def LoginDatabase.lockFailure (db : LoginDatabase) (acc : Account) (ip : String) :
    Option AuthResult :=
  if acc.locked = 1 then
    if acc.lastIp ≠ ip then some .failLockedEnforced else none
  else if acc.lockCountry = "" ∨ acc.lockCountry = "00" then none
  else match db.ip2nation ip with
    | some loginCountry =>
        if loginCountry ≠ acc.lockCountry then some .failUnlockableLock else none
    | none => none

theorem LoginDatabase.collate_of_findAccount {db : LoginDatabase} {X : String} {acc : Account}
    (h : db.findAccount X = some acc) : db.collate acc.username = db.collate X := by
  simpa using List.find?_some h

theorem LoginDatabase.findAccount_congr {db : LoginDatabase} {X Y : String}
    (h : db.collate X = db.collate Y) : db.findAccount X = db.findAccount Y := by
  rw [findAccount,findAccount,h]

theorem LoginDatabase.findAccount_updateAccount (db : LoginDatabase) (name X : String)
    (f : Account → Account) (hf : ∀ a, (f a).username = a.username) :
    (db.updateAccount name f).findAccount X =
      if db.collate X = db.collate name then (db.findAccount X).map f else db.findAccount X := by
  have hp : ((fun a : Account => db.collate a.username == db.collate X) ∘
      fun a => if db.collate a.username == db.collate name then f a else a) =
      fun a => db.collate a.username == db.collate X := by
    funext a
    by_cases ha : db.collate a.username = db.collate name <;> simp [ha,hf]
  rw [findAccount,updateAccount,List.find?_map,hp]
  change Option.map _ (db.findAccount X) = _
  cases h : db.findAccount X with
  | none => simp
  | some acc =>
    rw [Option.map_some,collate_of_findAccount h]
    by_cases hX : db.collate X = db.collate name <;> simp [hX]

@[simp] theorem LoginDatabase.findAccount_updVS (db : LoginDatabase) (v s : Nat)
    (name X : String) : (db.updVS v s name).findAccount X =
      if db.collate X = db.collate name then
        (db.findAccount X).map (fun a => { a with vs := some (v,s) })
      else db.findAccount X :=
  db.findAccount_updateAccount name X _ (fun _ => rfl)

structure AuthSocket where
  login : String
  tokenKey : String
  localizationName : String
  os : String
  build : Nat
  expversion : ExpansionFlag
  accountSecurityLevel : Nat
  v : Nat
  s : Nat
  K : Key
  reconnectProof : Nat
  authed : Bool
  deriving DecidableEq, Repr

def AuthSocket.new : AuthSocket where
  login := ""
  tokenKey := ""
  localizationName := ""
  os := ""
  build := 0
  expversion := .noValid
  accountSecurityLevel := 0
  v := 0
  s := 0
  K := .zero
  reconnectProof := 0
  authed := false

/-- `os` is the C string read from the four bytes, so it may run on past them. `salt` and
`nonce` are the random numbers the handlers draw. -/
structure Challenge where
  I : String
  build : Nat
  os : String
  country : String
  salt : Nat
  nonce : Nat

/-- `honest` says that `M1` was computed from the password the client knows for the held
verifier; `key` names the session key of the exchange. -/
structure LogonProof where
  A : Nat
  honest : Bool
  key : Nat
  securityFlags : Nat
  token : Nat

/-- `none` stands for a packet that is cut short. -/
inductive AuthCmd where
  | logonChallenge (ch : Option Challenge)
  | logonProof (lp : Option LogonProof)
  | reconnectChallenge (ch : Option Challenge)
  | reconnectProof (honest : Option Bool)
  | realmList (complete : Bool)

/-- What a handler does besides changing the socket: packets, the shutdown, and marks for
the facts the properties speak about. `named` marks that a challenge has set the account
name, `accepted` that a logon challenge has passed every check and loaded `v` and `s`,
`proofOk` a successful logon or reconnect proof. -/
inductive Effect where
  | named (login : String)
  | accepted (login : String) (v s : Nat)
  | challengeReply (result : AuthResult) (securityFlags : Nat)
  | updLogonProof (login : String) (v s : Nat) (key : Key)
  | proofReply (result : AuthResult)
  | proofOk (login : String)
  | reconnectReply
  | realmList (login : String) (id : Nat) (accountSecurityLevel : Nat)
  | shutdown
  deriving DecidableEq, Repr

structure Config where
  makeVerifier : String → Nat → Nat
  knows : Nat → Nat → Bool
  generateToken : String → Nat → Nat
  wrongPassMaxCount : Nat
  wrongPassBanTime : Nat
  wrongPassBanType : Bool

structure Out where
  result : Bool
  socket : AuthSocket
  db : LoginDatabase
  effects : List Effect

section Handlers

variable (cfg : Config) (ip : String) (now : Nat) (sock : AuthSocket) (db : LoginDatabase)

/-- The branch of `_HandleLogonChallenge` in which every check has passed. -/
def acceptChallenge (acc : Account) (ch : Challenge) : Out :=
  let vs : Nat × Nat := match acc.vs with
    | some vs => vs
    | none => (cfg.makeVerifier acc.shaPassHash ch.salt,ch.salt)
  let db := match acc.vs with
    | some _ => db
    | none => db.updVS vs.1 vs.2 sock.login
  let reply := if sock.expversion = .noValid then AuthResult.failVersionInvalid else .success
  ⟨true,
   { sock with v := vs.1, s := vs.2, tokenKey := acc.tokenKey,
               accountSecurityLevel := min acc.gmlevel secAdministrator,
               localizationName := String.ofList ch.country.toList.reverse },
   db,
   [.accepted sock.login vs.1 vs.2,
    .challengeReply reply (if acc.tokenKey = "" then 0 else 4)]⟩

def rejectChallenge (result : AuthResult) : Out := ⟨true,sock,db,[.challengeReply result 0]⟩

def checkChallenge (ch : Challenge) : Out :=
  let db := db.delExpiredIpBans now
  if db.ipIsBanned ip then rejectChallenge sock db .failBanned
  else match db.findAccount sock.login with
    | none => rejectChallenge sock db .failUnknownAccount
    | some acc =>
      match db.lockFailure acc ip with
      | some result => rejectChallenge sock db result
      | none =>
        let db := db.updExpiredAccountBans now
        match db.selAccountBanned acc.id with
        | some ban =>
            rejectChallenge sock db
              (if ban.bandate = ban.unbandate then .failBanned else .failSuspended)
        | none => acceptChallenge cfg sock db acc ch

/-- The mark that the account name has been set goes before the effects of `out`. -/
def Out.naming (name : String) (out : Out) : Out :=
  { out with effects := .named name :: out.effects }

def handleLogonChallenge : Option Challenge → Out
  | none => ⟨false,sock,db,[]⟩
  | some ch =>
    let sock := { sock with login := ch.I, build := ch.build,
                            expversion := expVersion ch.build, os := ch.os }
    if ch.os.length > 4 then ⟨false,sock,db,[.named ch.I]⟩
    else
      let sock := { sock with os := String.ofList ch.os.toList.reverse }
      (checkChallenge cfg ip now sock db ch).naming ch.I

def proofMatches (lp : LogonProof) : Bool := lp.honest && cfg.knows sock.v sock.s

def wrongPassword : Out :=
  let reply := [Effect.proofReply .failUnknownAccount]
  if cfg.wrongPassMaxCount = 0 then ⟨true,sock,db,reply⟩
  else
    let db := db.updFailedLogins sock.login
    match db.findAccount sock.login with
    | none => ⟨true,sock,db,reply⟩
    | some acc =>
      if acc.failedLogins < cfg.wrongPassMaxCount then ⟨true,sock,db,reply⟩
      else if cfg.wrongPassBanType then
        ⟨true,sock,{ db with accountBanned := db.accountBanned ++
          [⟨acc.id,now,now+cfg.wrongPassBanTime,true⟩] },reply⟩
      else
        ⟨true,sock,{ db with ipBanned := db.ipBanned ++
          [⟨ip,now,now+cfg.wrongPassBanTime⟩] },reply⟩

/-- The branch of `_HandleLogonProof` for a matching proof: the row is written first, the
token is checked after it. -/
def commitProof (lp : LogonProof) : Out :=
  let db := db.updLogonProof sock.K ip (getLocaleByName sock.localizationName) sock.os sock.login
  let written := Effect.updLogonProof sock.login sock.v sock.s sock.K
  if (lp.securityFlags &&& 4 ≠ 0 ∨ sock.tokenKey ≠ "") ∧
      cfg.generateToken sock.tokenKey now ≠ lp.token then
    ⟨false,sock,db,[written,.proofReply .failUnknownAccount]⟩
  else
    ⟨true,{ sock with authed := true },db,
      [written,.proofReply .success,.proofOk sock.login]⟩

def handleLogonProof : Option LogonProof → Out
  | none => ⟨false,sock,db,[]⟩
  | some lp =>
    if sock.expversion = .noValid then ⟨true,sock,db,[.shutdown]⟩
    else if lp.A = 0 then ⟨true,sock,db,[.shutdown]⟩
    else if proofMatches cfg sock lp then
      commitProof cfg ip now { sock with K := .shared lp.key } db lp
    else wrongPassword cfg ip now { sock with K := .other lp.key } db

def handleReconnectChallenge : Option Challenge → Out
  | none => ⟨false,sock,db,[]⟩
  | some ch =>
    let sock := { sock with login := ch.I }
    match db.findAccount ch.I with
    | none => ⟨false,sock,db,[.named ch.I,.shutdown]⟩
    | some acc =>
      let sock := { sock with build := ch.build, expversion := expVersion ch.build, os := ch.os }
      if ch.os.length > 4 then ⟨false,sock,db,[.named ch.I]⟩
      else
        ⟨true,
         { sock with os := String.ofList ch.os.toList.reverse,
                     accountSecurityLevel := min acc.gmlevel secAdministrator,
                     K := acc.sessionkey, reconnectProof := ch.nonce },
         db,[.named ch.I,.reconnectReply]⟩

def handleReconnectProof : Option Bool → Out
  | none => ⟨false,sock,db,[]⟩
  | some honest =>
    if sock.login = "" ∨ sock.reconnectProof = 0 ∨ sock.K = .zero then ⟨false,sock,db,[]⟩
    else if honest && sock.K.isShared then
      ⟨true,{ sock with authed := true },db,[.reconnectReply,.proofOk sock.login]⟩
    else ⟨false,sock,db,[.shutdown]⟩

def handleRealmList (complete : Bool) : Out :=
  if !complete then ⟨false,sock,db,[]⟩
  else match db.findAccount sock.login with
    | none => ⟨false,sock,db,[.shutdown]⟩
    | some acc => ⟨true,sock,db,[.realmList sock.login acc.id sock.accountSecurityLevel]⟩

/-- The dispatch of `OnRead` through its command table; only the realm list asks for the
status `STATUS_AUTHED`. -/
def onRead : AuthCmd → Out
  | .logonChallenge ch => handleLogonChallenge cfg ip now sock db ch
  | .logonProof lp => handleLogonProof cfg ip now sock db lp
  | .reconnectChallenge ch => handleReconnectChallenge sock db ch
  | .reconnectProof honest => handleReconnectProof sock db honest
  | .realmList complete =>
      if sock.authed then handleRealmList sock db complete
      else ⟨false,sock,db,[.shutdown]⟩

def Acceptable (X : String) (acc : Account) : Prop :=
  (db.delExpiredIpBans now).ipIsBanned ip = false ∧ db.findAccount X = some acc ∧
  db.lockFailure acc ip = none ∧ (db.updExpiredAccountBans now).selAccountBanned acc.id = none

theorem checkChallenge_cases (ch : Challenge) :
    (∃ db' result, (∀ X, db'.findAccount X = db.findAccount X) ∧
      checkChallenge cfg ip now sock db ch = rejectChallenge sock db' result) ∨
    (∃ acc db', (∀ X, db'.findAccount X = db.findAccount X) ∧
      Acceptable ip now db sock.login acc ∧
      checkChallenge cfg ip now sock db ch = acceptChallenge cfg sock db' acc ch) := by
  unfold checkChallenge
  simp only
  split_ifs with hip
  · exact .inl ⟨db.delExpiredIpBans now,_,fun _ => rfl,rfl⟩
  · split
    · exact .inl ⟨db.delExpiredIpBans now,_,fun _ => rfl,rfl⟩
    · rename_i acc ha
      split
      · exact .inl ⟨db.delExpiredIpBans now,_,fun _ => rfl,rfl⟩
      · rename_i hl
        split
        · exact .inl ⟨(db.delExpiredIpBans now).updExpiredAccountBans now,_,fun _ => rfl,rfl⟩
        · rename_i hb
          exact .inr ⟨acc,(db.delExpiredIpBans now).updExpiredAccountBans now,fun _ => rfl,
            ⟨by simpa using hip,ha,hl,hb⟩,rfl⟩

end Handlers

end TrinityCore.Auth
