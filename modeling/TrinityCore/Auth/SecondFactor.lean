import TrinityCore.Auth.Socket

set_option autoImplicit false

/-!
The security token, over any number of connections that share the login database. The
proof handler writes the row before it looks at the token, and a reconnect trusts the row,
so a client without the token is kept out only while no proof of the password gets through.
-/

namespace TrinityCore.Auth

structure Server where
  sockets : Nat → AuthSocket
  db : LoginDatabase

def Server.new (db : LoginDatabase) : Server := ⟨fun _ => AuthSocket.new,db⟩

structure Request where
  conn : Nat
  now : Nat
  cmd : AuthCmd

def Server.step (cfg : Config) (ip : Nat → String) (s : Server) (r : Request) : Server :=
  let out := onRead cfg (ip r.conn) r.now (s.sockets r.conn) s.db r.cmd
  ⟨Function.update s.sockets r.conn out.socket,out.db⟩

def Account.guarded (acc : Account) : Key × String := (acc.sessionkey,acc.lastIp)

/-- Nothing was granted for `X`: its row still has the session key and address of `acc`, and
no connection is authed for it, under whatever spelling of the name. -/
def Ungranted (X : String) (acc : Account) (s : Server) : Prop :=
  (s.db.findAccount X).map Account.guarded = some acc.guarded ∧
  ∀ n, s.db.collate (s.sockets n).login = s.db.collate X → (s.sockets n).authed = false

/-- The request does not carry the token of `key`. -/
def Request.withheld (cfg : Config) (key : String) (r : Request) : Prop :=
  match r.cmd with
  | .logonProof (some lp) => lp.token ≠ cfg.generateToken key r.now
  | _ => True

/-- The requests that grant nothing. A logon proof that gets through to the write is not for
`X`. A challenge for `X` comes on a connection that is not authed, and does not leave a
session key there that the client knows. A name is for `X` when the database takes it for
`X`. -/
def Harmless (cfg : Config) (X : String) (s : Server) (r : Request) : Prop :=
  let sock := s.sockets r.conn
  match r.cmd with
  | .logonChallenge (some ch) =>
      s.db.collate ch.I = s.db.collate X → sock.authed = false ∧ sock.K.isShared = false
  | .logonProof (some lp) =>
      s.db.collate sock.login = s.db.collate X → sock.expversion ≠ .noValid → lp.A ≠ 0 →
        proofMatches cfg sock lp = false
  | .reconnectChallenge (some ch) =>
      s.db.collate ch.I = s.db.collate X →
        sock.authed = false ∧ (4 < ch.os.length → sock.K.isShared = false)
  | _ => True

/-- A socket that bears the name of `X` is not authed and its key is not known to the client. -/
def AuthSocket.Safe (collate : String → String) (X : String) (sock : AuthSocket) : Prop :=
  collate sock.login = collate X → sock.authed = false ∧ sock.K.isShared = false

structure Server.Inv (X : String) (acc : Account) (s : Server) : Prop where
  row : (s.db.findAccount X).map Account.guarded = some acc.guarded
  safe : ∀ n, (s.sockets n).Safe s.db.collate X

section

variable {cfg : Config} {ip : String} {now : Nat} {sock : AuthSocket} {db : LoginDatabase}
  {X : String}

theorem guarded_updateAccount (db : LoginDatabase) (name : String) (f : Account → Account)
    (hu : ∀ a, (f a).username = a.username)
    (hf : db.collate X = db.collate name → ∀ a, (f a).guarded = a.guarded) :
    ((db.updateAccount name f).findAccount X).map Account.guarded =
      (db.findAccount X).map Account.guarded := by
  rw [LoginDatabase.findAccount_updateAccount db name X f hu]
  split_ifs with hX
  · cases db.findAccount X with
    | none => rfl
    | some a => simp [hf hX]
  · rfl

theorem guarded_checkChallenge (ch : Challenge) :
    ((checkChallenge cfg ip now sock db ch).db.findAccount X).map Account.guarded =
      (db.findAccount X).map Account.guarded := by
  obtain ⟨db',result,hdb,heq⟩ | ⟨acc,db',hdb,-,heq⟩ := checkChallenge_cases cfg ip now sock db ch
  · rw [heq,← hdb]
    rfl
  · rw [heq,← hdb]
    unfold acceptChallenge
    cases acc.vs with
    | some vs => rfl
    | none => exact guarded_updateAccount _ _ _ (fun _ => rfl) (fun _ _ => rfl)

theorem guarded_wrongPassword :
    ((wrongPassword cfg ip now sock db).db.findAccount X).map Account.guarded =
      (db.findAccount X).map Account.guarded := by
  have h := guarded_updateAccount (X := X) db sock.login
    (fun a => { a with failedLogins := a.failedLogins+1 }) (fun _ => rfl) (fun _ _ => rfl)
  unfold wrongPassword
  simp only
  split_ifs
  · rfl
  all_goals
    split
    · exact h
    · split_ifs <;> exact h

theorem guarded_commitProof (hX : db.collate sock.login ≠ db.collate X) (lp : LogonProof) :
    ((commitProof cfg ip now sock db lp).db.findAccount X).map Account.guarded =
      (db.findAccount X).map Account.guarded := by
  have h := guarded_updateAccount (X := X) db sock.login (fun a =>
    { a with sessionkey := sock.K, lastIp := ip, locale := getLocaleByName sock.localizationName,
             failedLogins := 0, os := sock.os }) (fun _ => rfl) (fun h => absurd h.symm hX)
  unfold commitProof
  simp only
  split_ifs <;> exact h

theorem guarded_onRead {s : Server} {ip : Nat → String} {r : Request} (h : Harmless cfg X s r) :
    ((s.step cfg ip r).db.findAccount X).map Account.guarded =
      (s.db.findAccount X).map Account.guarded := by
  obtain ⟨conn,now,cmd⟩ := r
  cases cmd with
  | logonChallenge ch =>
    cases ch with
    | none => rfl
    | some ch =>
      simp only [Server.step,onRead,handleLogonChallenge]
      split_ifs
      · rfl
      · exact guarded_checkChallenge ch
  | logonProof lp =>
    cases lp with
    | none => rfl
    | some lp =>
      simp only [Server.step,onRead,handleLogonProof]
      split_ifs with h1 h2 h3
      · rfl
      · rfl
      · refine guarded_commitProof (fun hX => ?_) lp
        simp [h hX h1 h2] at h3
      · exact guarded_wrongPassword
  | reconnectChallenge ch =>
    cases ch with
    | none => rfl
    | some ch =>
      simp only [Server.step,onRead,handleReconnectChallenge]
      split
      · rfl
      · split_ifs <;> rfl
  | reconnectProof honest =>
    cases honest with
    | none => rfl
    | some honest =>
      simp only [Server.step,onRead,handleReconnectProof]
      split_ifs <;> rfl
  | realmList complete =>
    simp only [Server.step,onRead,handleRealmList]
    split_ifs
    · rfl
    · split <;> rfl
    · rfl

theorem collate_checkChallenge (ch : Challenge) :
    (checkChallenge cfg ip now sock db ch).db.collate = db.collate := by
  unfold checkChallenge acceptChallenge
  simp only
  repeat' split
  all_goals rfl

theorem collate_onRead (cmd : AuthCmd) :
    (onRead cfg ip now sock db cmd).db.collate = db.collate := by
  cases cmd with
  | logonChallenge ch =>
    cases ch with
    | none => rfl
    | some ch =>
      simp only [onRead,handleLogonChallenge]
      split_ifs
      · rfl
      · exact collate_checkChallenge ch
  | logonProof lp =>
    cases lp with
    | none => rfl
    | some lp =>
      simp only [onRead,handleLogonProof,commitProof,wrongPassword]
      repeat' split
      all_goals rfl
  | reconnectChallenge ch =>
    cases ch with
    | none => rfl
    | some ch =>
      simp only [onRead,handleReconnectChallenge]
      split
      · rfl
      · split_ifs <;> rfl
  | reconnectProof honest =>
    cases honest with
    | none => rfl
    | some honest =>
      simp only [onRead,handleReconnectProof]
      split_ifs <;> rfl
  | realmList complete =>
    simp only [onRead,handleRealmList]
    split_ifs
    · rfl
    · split <;> rfl
    · rfl

theorem safe_checkChallenge (h : sock.Safe db.collate X) (ch : Challenge) :
    (checkChallenge cfg ip now sock db ch).socket.Safe db.collate X := by
  obtain ⟨db',result,-,heq⟩ | ⟨acc,db',-,-,heq⟩ := checkChallenge_cases cfg ip now sock db ch
  · rw [heq]
    exact h
  · rw [heq]
    exact h

theorem safe_onRead {s : Server} {ip : Nat → String} {r : Request} (h : Harmless cfg X s r)
    (hs : (s.sockets r.conn).Safe s.db.collate X)
    (hk : ∃ acc, s.db.findAccount X = some acc ∧ acc.sessionkey.isShared = false) :
    (onRead cfg (ip r.conn) r.now (s.sockets r.conn) s.db r.cmd).socket.Safe s.db.collate X := by
  obtain ⟨conn,now,cmd⟩ := r
  cases cmd with
  | logonChallenge ch =>
    cases ch with
    | none => exact hs
    | some ch =>
      simp only [onRead,handleLogonChallenge]
      split_ifs
      · exact h
      · refine safe_checkChallenge ?_ ch
        exact h
  | logonProof lp =>
    cases lp with
    | none => exact hs
    | some lp =>
      simp only [onRead,handleLogonProof]
      split_ifs with h1 h2 h3
      · exact hs
      · exact hs
      · -- the proof is for another account, whose name stays on the socket
        have hX : s.db.collate (s.sockets conn).login ≠ s.db.collate X :=
          fun hX => by simp [h hX h1 h2] at h3
        unfold commitProof
        simp only
        split_ifs <;> exact fun hl => absurd hl hX
      · have ho : ({ s.sockets conn with K := .other lp.key } : AuthSocket).Safe s.db.collate X :=
          fun hX => ⟨(hs hX).1,rfl⟩
        unfold wrongPassword
        simp only
        split_ifs
        · exact ho
        all_goals
          split
          · exact ho
          · split_ifs <;> exact ho
  | reconnectChallenge ch =>
    cases ch with
    | none => exact hs
    | some ch =>
      simp only [onRead,handleReconnectChallenge]
      split
      · rename_i hf
        intro hX
        obtain ⟨acc,ha,-⟩ := hk
        simp [LoginDatabase.findAccount_congr (show s.db.collate ch.I = _ from hX),ha] at hf
      · rename_i acc hf
        split_ifs with ho
        · exact fun hX => ⟨(h hX).1,(h hX).2 ho⟩
        · intro hX
          obtain ⟨acc',ha,hn⟩ := hk
          obtain rfl : acc' = acc := by
            simpa [LoginDatabase.findAccount_congr (show s.db.collate ch.I = _ from hX),ha] using hf
          exact ⟨(h hX).1,hn⟩
  | reconnectProof honest =>
    cases honest with
    | none => exact hs
    | some honest =>
      simp only [onRead,handleReconnectProof]
      split_ifs with h1 h2
      · exact hs
      · intro hX
        simp [(hs hX).2] at h2
      · exact hs
  | realmList complete =>
    simp only [onRead,handleRealmList]
    split_ifs
    · exact hs
    · split <;> exact hs
    · exact hs

end

theorem Server.Inv.step {cfg : Config} {ip : Nat → String} {X : String} {acc : Account}
    (hk : acc.sessionkey.isShared = false) {s : Server} {r : Request} (h : s.Inv X acc)
    (hr : Harmless cfg X s r) : (s.step cfg ip r).Inv X acc := by
  obtain ⟨a,ha,hg⟩ : ∃ a, s.db.findAccount X = some a ∧ a.guarded = acc.guarded := by
    simpa using h.row
  have hak : a.sessionkey.isShared = false := by
    rw [show a.sessionkey = acc.sessionkey from congrArg Prod.fst hg]
    exact hk
  refine ⟨(guarded_onRead hr).trans h.row,fun n => ?_⟩
  have hc : (s.step cfg ip r).db.collate = s.db.collate := collate_onRead r.cmd
  rw [hc]
  by_cases hn : n = r.conn
  · subst hn
    simpa [Server.step] using safe_onRead hr (h.safe _) ⟨a,ha,hak⟩
  · simpa [Server.step,hn] using h.safe n

/-- Without the token nothing is granted, in every run on any number of connections in which
no logon proof for the account gets through and no challenge for it comes on a connection
that is authed or keeps a session key the client knows, in any spelling of its name. -/
theorem harmless_run_ungranted (cfg : Config) (ip : Nat → String) (db : LoginDatabase)
    (X : String) (acc : Account) (ha : db.findAccount X = some acc)
    (hk : acc.sessionkey.isShared = false) (rs : List Request)
    (h : Run.Guarded (Server.step cfg ip) (Harmless cfg X) (.new db) rs) :
    Ungranted X acc (Run.exec (Server.step cfg ip) (.new db) rs) := by
  have h0 : (Server.new db).Inv X acc := ⟨by simp [Server.new,ha],fun _ _ => ⟨rfl,rfl⟩⟩
  have hi := h.inv (fun s r hi hr => Server.Inv.step hk hi hr) h0
  exact ⟨hi.row,fun n hn => (hi.safe n hn).1⟩

def tokenAccount : Account :=
  ⟨1,"OWNER","hash",.other 7,some (10,11),"JBSWY3DP",0,"","10.0.0.1",0,0,0,""⟩

def tokenDatabase : LoginDatabase where
  accounts := [tokenAccount]
  accountBanned := []
  ipBanned := []
  ip2nation := fun _ => none
  collate := fun name => String.ofList (name.toList.map Char.toUpper)

def tokenConfig : Config where
  makeVerifier := fun _ salt => salt
  knows := fun v _ => v == 10
  generateToken := fun _ now => now+1
  wrongPassMaxCount := 0
  wrongPassBanTime := 0
  wrongPassBanType := false

def tokenLogin (honest : Bool) : List Request :=
  [⟨0,100,.logonChallenge (some ⟨"OWNER",12340,"niW","SUne",3,4⟩)⟩,
   ⟨0,101,.logonProof (some ⟨5,honest,1,4,0⟩)⟩,
   ⟨1,102,.reconnectChallenge (some ⟨"owner",12340,"niW","SUne",3,4⟩)⟩,
   ⟨1,103,.reconnectProof (some true)⟩]

theorem harmless_run_wrong_password :
    Run.Guarded (Server.step tokenConfig (fun _ => "10.0.0.9")) (Harmless tokenConfig "OWNER")
      (.new tokenDatabase) (tokenLogin false) ∧
    Ungranted "OWNER" tokenAccount (Run.exec (Server.step tokenConfig (fun _ => "10.0.0.9"))
      (.new tokenDatabase) (tokenLogin false)) := by
  have h : Run.Guarded (Server.step tokenConfig (fun _ => "10.0.0.9"))
      (Harmless tokenConfig "OWNER") (.new tokenDatabase) (tokenLogin false) :=
    ⟨fun _ => by decide,fun _ _ _ => by decide,fun _ => by decide,trivial,trivial⟩
  exact ⟨h,harmless_run_ungranted _ _ _ _ _ (by decide) rfl _ h⟩

/-- With the password alone the row is overwritten, and a second connection reconnects with
the key that was written. -/
theorem token_withheld_yet_granted :
    (∀ r ∈ tokenLogin true, r.withheld tokenConfig tokenAccount.tokenKey) ∧
    ¬ Ungranted "OWNER" tokenAccount (Run.exec (Server.step tokenConfig (fun _ => "10.0.0.9"))
      (.new tokenDatabase) (tokenLogin true)) := by
  refine ⟨by simp [tokenLogin,Request.withheld,tokenConfig],fun h => ?_⟩
  have ha := h.2 1 (by decide)
  revert ha
  decide

end TrinityCore.Auth
