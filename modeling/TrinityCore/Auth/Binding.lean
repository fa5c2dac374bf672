import TrinityCore.Auth.Socket

set_option autoImplicit false

/-!
Authentication is bound to the challenged account, on one socket and over every sequence
of commands, as long as no challenge for another account slips in between a challenge and
its proof or between a proof and the realm list. Without that the account name and the
verifier of the socket can belong to two accounts.
-/

namespace TrinityCore.Auth

/-- A connection: its socket, the database, and every effect so far. -/
structure Session where
  socket : AuthSocket
  db : LoginDatabase
  log : List Effect

def Session.new (db : LoginDatabase) : Session := ⟨AuthSocket.new,db,[]⟩

structure Timed where
  now : Nat
  cmd : AuthCmd

def Session.step (cfg : Config) (ip : String) (s : Session) (c : Timed) : Session :=
  let out := onRead cfg ip c.now s.socket s.db c.cmd
  ⟨out.socket,out.db,s.log ++ out.effects⟩

def lastProof (log : List Effect) : Option String :=
  log.foldl (fun cur e => match e with | .proofOk X => some X | _ => cur) none

/-- What each effect must find in the log before it: a session key is written for an
account whose logon challenge was accepted and loaded the very values the proof was checked
against, and a realm list is for the account of the latest successful proof. -/
def Bound (pre : List Effect) : Effect → Prop
  | .updLogonProof X v s _ => .accepted X v s ∈ pre
  | .realmList X _ _ => lastProof pre = some X
  | _ => True

def inForceStep (cur : Option (String × Nat × Nat)) : Effect → Option (String × Nat × Nat)
  | .accepted X v s => some (X,v,s)
  | .named Y => cur.filter (fun c => c.1 == Y)
  | _ => cur

/-- The last accepted logon challenge, unless a challenge has named another account since. -/
def inForce (log : List Effect) : Option (String × Nat × Nat) := log.foldl inForceStep none

def stillProvedStep (cur : Option String) : Effect → Option String
  | .proofOk X => some X
  | .named Y => cur.filter (fun X => X == Y)
  | _ => cur

/-- The account of the last successful proof, unless a challenge has named another since. -/
def stillProved (log : List Effect) : Option String := log.foldl stillProvedStep none

/-- The commands that keep the binding: a proof that matches comes while its challenge is
in force, a realm list while the last successful proof is. -/
def Orderly (cfg : Config) (s : Session) (c : Timed) : Prop :=
  match c.cmd with
  | .logonProof (some lp) => proofMatches cfg s.socket lp = true → (inForce s.log).isSome
  | .realmList _ => s.socket.authed = true → (stillProved s.log).isSome
  | _ => True

structure Session.Inv (s : Session) : Prop where
  bound : Run.EachAfter Bound s.log
  challenge : ∀ X v sl, inForce s.log = some (X,v,sl) →
    s.socket.login = X ∧ s.socket.v = v ∧ s.socket.s = sl ∧ .accepted X v sl ∈ s.log
  proof : ∀ X, stillProved s.log = some X → s.socket.login = X ∧ lastProof s.log = some X

theorem Session.inv_new (db : LoginDatabase) : (Session.new db).Inv where
  bound := by simp [Session.new]
  challenge := by simp [Session.new,inForce]
  proof := by simp [Session.new,stillProved]

def Effect.plain : Effect → Bool
  | .challengeReply _ _ | .proofReply _ | .reconnectReply | .shutdown => true
  | _ => false

@[simp] theorem inForce_concat (log : List Effect) (e : Effect) :
    inForce (log ++ [e]) = inForceStep (inForce log) e := by simp [inForce]

@[simp] theorem stillProved_concat (log : List Effect) (e : Effect) :
    stillProved (log ++ [e]) = stillProvedStep (stillProved log) e := by simp [stillProved]

theorem lastProof_concat (log : List Effect) (e : Effect) :
    lastProof (log ++ [e]) = match e with | .proofOk X => some X | _ => lastProof log := by
  simp [lastProof]

theorem bound_concat {log : List Effect} {e : Effect} (h : Run.EachAfter Bound log)
    (he : Bound log e) : Run.EachAfter Bound (log ++ [e]) := by
  rw [Run.eachAfter_append]
  exact ⟨h,by simpa using he⟩

namespace Session.Inv

variable {s : Session}

theorem congr (h : s.Inv) (sock : AuthSocket) (db : LoginDatabase)
    (hs : sock.login = s.socket.login ∧ sock.v = s.socket.v ∧ sock.s = s.socket.s) :
    Session.Inv ⟨sock,db,s.log⟩ := by
  obtain ⟨h1,h2,h3⟩ := hs
  exact ⟨h.bound,by simpa [h1,h2,h3] using h.challenge,by simpa [h1] using h.proof⟩

theorem plain (h : s.Inv) {e : Effect} (he : e.plain) :
    Session.Inv ⟨s.socket,s.db,s.log ++ [e]⟩ := by
  have hf : ∀ cur, inForceStep cur e = cur := by cases e <;> simp_all [Effect.plain,inForceStep]
  have hp : ∀ cur, stillProvedStep cur e = cur := by
    cases e <;> simp_all [Effect.plain,stillProvedStep]
  have hl : lastProof (s.log ++ [e]) = lastProof s.log := by
    rw [lastProof_concat]; cases e <;> simp_all [Effect.plain]
  refine ⟨bound_concat h.bound ?_,fun X v sl hX => ?_,fun X hX => ?_⟩
  · cases e <;> simp_all [Effect.plain,Bound]
  · rw [inForce_concat,hf] at hX
    obtain ⟨h1,h2,h3,h4⟩ := h.challenge X v sl hX
    exact ⟨h1,h2,h3,List.mem_append_left _ h4⟩
  · rw [stillProved_concat,hp] at hX
    rw [hl]
    exact h.proof X hX

theorem named (h : s.Inv) (sock : AuthSocket) (hv : sock.v = s.socket.v)
    (hs : sock.s = s.socket.s) : Session.Inv ⟨sock,s.db,s.log ++ [.named sock.login]⟩ := by
  refine ⟨bound_concat h.bound trivial,fun X v sl hX => ?_,fun X hX => ?_⟩
  · simp only [inForce_concat,inForceStep,Option.filter_eq_some_iff] at hX
    obtain ⟨-,h2,h3,h4⟩ := h.challenge X v sl hX.1
    exact ⟨(beq_iff_eq.mp hX.2).symm,hv.trans h2,hs.trans h3,List.mem_append_left _ h4⟩
  · simp only [stillProved_concat,stillProvedStep,Option.filter_eq_some_iff] at hX
    rw [lastProof_concat]
    exact ⟨(beq_iff_eq.mp hX.2).symm,(h.proof X hX.1).2⟩

theorem accepted (h : s.Inv) (sock : AuthSocket) (hl : sock.login = s.socket.login) :
    Session.Inv ⟨sock,s.db,s.log ++ [.accepted sock.login sock.v sock.s]⟩ := by
  refine ⟨bound_concat h.bound trivial,fun X v sl hX => ?_,fun X hX => ?_⟩
  · simp only [inForce_concat,inForceStep,Option.some.injEq,Prod.mk.injEq] at hX
    obtain ⟨rfl,rfl,rfl⟩ := hX
    simp
  · simp only [stillProved_concat,stillProvedStep] at hX
    rw [lastProof_concat]
    exact ⟨hl.trans (h.proof X hX).1,(h.proof X hX).2⟩

theorem proofOk (h : s.Inv) : Session.Inv ⟨s.socket,s.db,s.log ++ [.proofOk s.socket.login]⟩ := by
  refine ⟨bound_concat h.bound trivial,fun X v sl hX => ?_,fun X hX => ?_⟩
  · simp only [inForce_concat,inForceStep] at hX
    obtain ⟨h1,h2,h3,h4⟩ := h.challenge X v sl hX
    exact ⟨h1,h2,h3,List.mem_append_left _ h4⟩
  · simp only [stillProved_concat,stillProvedStep,Option.some.injEq] at hX
    rw [lastProof_concat]
    exact ⟨hX,by simp [hX]⟩

theorem written (h : s.Inv) (hf : (inForce s.log).isSome) (key : Key) :
    Session.Inv ⟨s.socket,s.db,
      s.log ++ [.updLogonProof s.socket.login s.socket.v s.socket.s key]⟩ := by
  obtain ⟨⟨X,v,sl⟩,hX⟩ := Option.isSome_iff_exists.mp hf
  obtain ⟨h1,h2,h3,h4⟩ := h.challenge X v sl hX
  refine ⟨bound_concat h.bound ?_,fun X v sl hX => ?_,fun X hX => ?_⟩
  · rw [h1,h2,h3]
    exact h4
  · simp only [inForce_concat,inForceStep] at hX
    obtain ⟨h1,h2,h3,h4⟩ := h.challenge X v sl hX
    exact ⟨h1,h2,h3,List.mem_append_left _ h4⟩
  · simp only [stillProved_concat,stillProvedStep] at hX
    rw [lastProof_concat]
    exact h.proof X hX

theorem realmList (h : s.Inv) (hp : (stillProved s.log).isSome) (id level : Nat) :
    Session.Inv ⟨s.socket,s.db,s.log ++ [.realmList s.socket.login id level]⟩ := by
  obtain ⟨X,hX⟩ := Option.isSome_iff_exists.mp hp
  obtain ⟨h1,h2⟩ := h.proof X hX
  refine ⟨bound_concat h.bound ?_,fun X v sl hX => ?_,fun X hX => ?_⟩
  · rw [h1]
    exact h2
  · simp only [inForce_concat,inForceStep] at hX
    obtain ⟨h1,h2,h3,h4⟩ := h.challenge X v sl hX
    exact ⟨h1,h2,h3,List.mem_append_left _ h4⟩
  · simp only [stillProved_concat,stillProvedStep] at hX
    rw [lastProof_concat]
    exact h.proof X hX

end Session.Inv

def Out.Keeps (s : Session) (out : Out) : Prop := Session.Inv ⟨out.socket,out.db,s.log ++ out.effects⟩

theorem keeps_idle {s : Session} (h : s.Inv) (r : Bool) (db : LoginDatabase) :
    Out.Keeps s ⟨r,s.socket,db,[]⟩ := by
  unfold Out.Keeps
  simpa using h.congr s.socket db ⟨rfl,rfl,rfl⟩

theorem keeps_plain {s : Session} (h : s.Inv) (r : Bool) (db : LoginDatabase) {e : Effect}
    (he : e.plain) : Out.Keeps s ⟨r,s.socket,db,[e]⟩ :=
  (h.congr s.socket db ⟨rfl,rfl,rfl⟩).plain he

theorem keeps_acceptChallenge {s : Session} (h : s.Inv) (cfg : Config) (db : LoginDatabase)
    (acc : Account) (ch : Challenge) :
    Out.Keeps s (acceptChallenge cfg s.socket db acc ch) := by
  unfold Out.Keeps acceptChallenge
  simp only
  rw [List.append_cons]
  refine Session.Inv.plain (s := ⟨_,_,_⟩) ?_ rfl
  exact (h.congr s.socket _ ⟨rfl,rfl,rfl⟩).accepted { s.socket with
    v := _, s := _, tokenKey := _, accountSecurityLevel := _, localizationName := _ } rfl

theorem keeps_checkChallenge {s : Session} (h : s.Inv) (cfg : Config) (ip : String) (now : Nat)
    (ch : Challenge) : Out.Keeps s (checkChallenge cfg ip now s.socket s.db ch) := by
  obtain ⟨db',result,-,heq⟩ | ⟨acc,db',-,-,heq⟩ := checkChallenge_cases cfg ip now s.socket s.db ch
  · rw [heq]
    exact keeps_plain h _ _ rfl
  · rw [heq]
    exact keeps_acceptChallenge h cfg _ _ ch

theorem keeps_handleLogonChallenge {s : Session} (h : s.Inv) (cfg : Config) (ip : String)
    (now : Nat) (ch : Option Challenge) :
    Out.Keeps s (handleLogonChallenge cfg ip now s.socket s.db ch) := by
  cases ch with
  | none => exact keeps_idle h _ _
  | some ch =>
    simp only [handleLogonChallenge]
    split_ifs
    · exact h.named _ rfl rfl
    · have hn := h.named { s.socket with
        login := ch.I, build := ch.build, expversion := expVersion ch.build,
        os := String.ofList ch.os.toList.reverse } rfl rfl
      have hk := keeps_checkChallenge hn cfg ip now ch
      simpa [Out.Keeps,Out.naming,List.append_assoc] using hk

theorem keeps_handleReconnectChallenge {s : Session} (h : s.Inv) (ch : Option Challenge) :
    Out.Keeps s (handleReconnectChallenge s.socket s.db ch) := by
  cases ch with
  | none => exact keeps_idle h _ _
  | some ch =>
    simp only [handleReconnectChallenge]
    split
    · unfold Out.Keeps
      rw [List.append_cons]
      exact (h.named { s.socket with login := ch.I } rfl rfl).plain rfl
    · split_ifs
      · exact h.named { s.socket with
          login := ch.I, build := ch.build, expversion := expVersion ch.build, os := ch.os } rfl rfl
      · unfold Out.Keeps
        rw [List.append_cons]
        exact ((h.named { s.socket with login := ch.I } rfl rfl).plain (e := .reconnectReply)
          rfl).congr _ _ ⟨rfl,rfl,rfl⟩

theorem keeps_wrongPassword {s : Session} (h : s.Inv) (cfg : Config) (ip : String) (now : Nat)
    (db : LoginDatabase) : Out.Keeps s (wrongPassword cfg ip now s.socket db) := by
  unfold wrongPassword
  simp only
  split_ifs
  · exact keeps_plain h _ _ rfl
  · split
    · exact keeps_plain h _ _ rfl
    · split_ifs <;> exact keeps_plain h _ _ rfl
  · split
    · exact keeps_plain h _ _ rfl
    · split_ifs <;> exact keeps_plain h _ _ rfl

theorem keeps_commitProof {s : Session} (h : s.Inv) (hf : (inForce s.log).isSome) (cfg : Config)
    (ip : String) (now : Nat) (lp : LogonProof) :
    Out.Keeps s (commitProof cfg ip now s.socket s.db lp) := by
  have hw := h.written hf s.socket.K
  unfold Out.Keeps commitProof
  simp only
  split_ifs
  · rw [List.append_cons]
    exact (hw.plain (e := .proofReply .failUnknownAccount) rfl).congr _ _ ⟨rfl,rfl,rfl⟩
  · rw [List.append_cons,List.append_cons]
    exact ((hw.plain (e := .proofReply .success) rfl).proofOk).congr _ _ ⟨rfl,rfl,rfl⟩

theorem keeps_handleLogonProof {s : Session} (h : s.Inv) (cfg : Config) (ip : String) (now : Nat)
    (lp : Option LogonProof)
    (hf : ∀ l, lp = some l → proofMatches cfg s.socket l = true → (inForce s.log).isSome) :
    Out.Keeps s (handleLogonProof cfg ip now s.socket s.db lp) := by
  cases lp with
  | none => exact keeps_idle h _ _
  | some lp =>
    simp only [handleLogonProof]
    split_ifs with h1 h2 h3
    · exact keeps_plain h _ _ rfl
    · exact keeps_plain h _ _ rfl
    · exact keeps_commitProof (s := ⟨{ s.socket with K := .shared lp.key },s.db,s.log⟩)
        (h.congr _ _ ⟨rfl,rfl,rfl⟩) (hf lp rfl h3) cfg ip now lp
    · exact keeps_wrongPassword (s := ⟨{ s.socket with K := .other lp.key },s.db,s.log⟩)
        (h.congr _ _ ⟨rfl,rfl,rfl⟩) cfg ip now s.db

theorem keeps_handleReconnectProof {s : Session} (h : s.Inv) (honest : Option Bool) :
    Out.Keeps s (handleReconnectProof s.socket s.db honest) := by
  cases honest with
  | none => exact keeps_idle h _ _
  | some honest =>
    simp only [handleReconnectProof]
    split_ifs
    · exact keeps_idle h _ _
    · unfold Out.Keeps
      rw [List.append_cons]
      exact ((h.plain (e := .reconnectReply) rfl).proofOk).congr _ _ ⟨rfl,rfl,rfl⟩
    · exact keeps_plain h _ _ rfl

theorem keeps_handleRealmList {s : Session} (h : s.Inv) (complete : Bool)
    (hp : (stillProved s.log).isSome) : Out.Keeps s (handleRealmList s.socket s.db complete) := by
  unfold handleRealmList
  split_ifs
  · exact keeps_idle h _ _
  · split
    · exact keeps_plain h _ _ rfl
    · exact h.realmList hp _ _

theorem Session.Inv.step {s : Session} (h : s.Inv) (cfg : Config) (ip : String) (c : Timed)
    (ho : Orderly cfg s c) : (s.step cfg ip c).Inv := by
  change Out.Keeps s (onRead cfg ip c.now s.socket s.db c.cmd)
  obtain ⟨now,cmd⟩ := c
  cases cmd with
  | logonChallenge ch => exact keeps_handleLogonChallenge h cfg ip now ch
  | logonProof lp =>
    refine keeps_handleLogonProof h cfg ip now lp (fun l hl => ?_)
    subst hl
    exact ho
  | reconnectChallenge ch => exact keeps_handleReconnectChallenge h ch
  | reconnectProof honest => exact keeps_handleReconnectProof h honest
  | realmList complete =>
    simp only [onRead]
    split_ifs with ha
    · exact keeps_handleRealmList h complete (ho ha)
    · exact keeps_plain h _ _ rfl

def Owns (db : LoginDatabase) (X : String) (v s : Nat) : Prop :=
  ∃ acc, db.findAccount X = some acc ∧ acc.vs = some (v,s)

theorem owns_updateAccount {db : LoginDatabase} {X : String} {v s : Nat} (h : Owns db X v s)
    (name : String) (f : Account → Account) (hu : ∀ a, (f a).username = a.username)
    (hf : ∀ a, db.findAccount name = some a → a.vs = some (v,s) → (f a).vs = some (v,s)) :
    Owns (db.updateAccount name f) X v s := by
  obtain ⟨acc,ha,hv⟩ := h
  unfold Owns
  rw [LoginDatabase.findAccount_updateAccount db name X f hu,ha]
  split_ifs with hX
  · exact ⟨f acc,rfl,hf acc (LoginDatabase.findAccount_congr hX ▸ ha) hv⟩
  · exact ⟨acc,rfl,hv⟩

theorem owns_acceptChallenge {cfg : Config} {sock : AuthSocket} {db : LoginDatabase}
    {acc : Account} {ch : Challenge} {X : String} {v s : Nat}
    (ha : db.findAccount sock.login = some acc) (h : Owns db X v s) :
    Owns (acceptChallenge cfg sock db acc ch).db X v s := by
  unfold acceptChallenge
  cases hv : acc.vs with
  | some vs => exact h
  | none =>
    -- a missing verifier is written, and then it was nobody's own before
    refine owns_updateAccount h _ _ (fun _ => rfl) (fun a hb hvs => ?_)
    obtain rfl : acc = a := by simpa [ha] using hb
    simp [hv] at hvs

theorem owns_accepted {cfg : Config} {sock : AuthSocket} {db : LoginDatabase}
    {acc : Account} {ch : Challenge} {X : String} {v s : Nat}
    (ha : db.findAccount sock.login = some acc)
    (h : .accepted X v s ∈ (acceptChallenge cfg sock db acc ch).effects) :
    X = sock.login ∧ Owns (acceptChallenge cfg sock db acc ch).db X v s := by
  unfold acceptChallenge at h ⊢
  simp only [List.mem_cons,reduceCtorEq,List.not_mem_nil,or_false,Effect.accepted.injEq] at h
  obtain ⟨rfl,rfl,rfl⟩ := h
  cases hv : acc.vs with
  | some vs => exact ⟨rfl,acc,ha,hv⟩
  | none => simp [Owns,ha]

theorem owns_congr {db db' : LoginDatabase} (h : ∀ X, db'.findAccount X = db.findAccount X)
    {X : String} {v s : Nat} (ho : Owns db X v s) : Owns db' X v s := by
  obtain ⟨acc,ha,hv⟩ := ho
  exact ⟨acc,(h X).trans ha,hv⟩

theorem owns_checkChallenge {cfg : Config} {ip : String} {now : Nat} {sock : AuthSocket}
    {db : LoginDatabase} {ch : Challenge} {X : String} {v s : Nat} (h : Owns db X v s) :
    Owns (checkChallenge cfg ip now sock db ch).db X v s := by
  obtain ⟨db',result,hdb,heq⟩ | ⟨acc,db',hdb,ha,heq⟩ := checkChallenge_cases cfg ip now sock db ch
  · rw [heq]
    exact owns_congr hdb h
  · rw [heq]
    exact owns_acceptChallenge ((hdb _).trans ha.2.1) (owns_congr hdb h)

theorem acceptable_of_accepted {cfg : Config} {ip : String} {now : Nat} {sock : AuthSocket}
    {db : LoginDatabase} {ch : Challenge} {X : String} {v s : Nat}
    (h : .accepted X v s ∈ (checkChallenge cfg ip now sock db ch).effects) :
    X = sock.login ∧ (∃ acc, Acceptable ip now db X acc) ∧
      Owns (checkChallenge cfg ip now sock db ch).db X v s := by
  obtain ⟨db',result,hdb,heq⟩ | ⟨acc,db',hdb,ha,heq⟩ := checkChallenge_cases cfg ip now sock db ch
  · simp [heq,rejectChallenge] at h
  · rw [heq] at h ⊢
    obtain ⟨rfl,ho⟩ := owns_accepted ((hdb _).trans ha.2.1) h
    exact ⟨rfl,⟨acc,ha⟩,ho⟩

theorem owns_onRead {cfg : Config} {ip : String} {now : Nat} {sock : AuthSocket}
    {db : LoginDatabase} {X : String} {v s : Nat} (h : Owns db X v s) (cmd : AuthCmd) :
    Owns (onRead cfg ip now sock db cmd).db X v s := by
  cases cmd with
  | logonChallenge ch =>
    cases ch with
    | none => exact h
    | some ch =>
      simp only [onRead,handleLogonChallenge]
      split_ifs
      · exact h
      · exact owns_checkChallenge h
  | logonProof lp =>
    cases lp with
    | none => exact h
    | some lp =>
      simp only [onRead,handleLogonProof,commitProof,wrongPassword]
      repeat' split
      all_goals
        first
        | exact h
        | exact owns_updateAccount h _ _ (fun _ => rfl) (fun _ _ hv => hv)
  | reconnectChallenge ch =>
    cases ch with
    | none => exact h
    | some ch =>
      simp only [onRead,handleReconnectChallenge]
      split
      · exact h
      · split_ifs <;> exact h
  | reconnectProof honest =>
    cases honest with
    | none => exact h
    | some honest =>
      simp only [onRead,handleReconnectProof]
      split_ifs <;> exact h
  | realmList complete =>
    simp only [onRead,handleRealmList]
    split_ifs
    · exact h
    · split <;> exact h
    · exact h

def AuthCmd.challenged : AuthCmd → Option String
  | .logonChallenge (some ch) => some ch.I
  | _ => none

theorem accepted_onRead {cfg : Config} {ip : String} {now : Nat} {sock : AuthSocket}
    {db : LoginDatabase} {X : String} {v s : Nat} {cmd : AuthCmd}
    (h : .accepted X v s ∈ (onRead cfg ip now sock db cmd).effects) :
    cmd.challenged = some X ∧ (∃ acc, Acceptable ip now db X acc) ∧
      Owns (onRead cfg ip now sock db cmd).db X v s := by
  cases cmd with
  | logonChallenge ch =>
    cases ch with
    | none => simp [onRead,handleLogonChallenge] at h
    | some ch =>
      simp only [onRead,handleLogonChallenge] at h ⊢
      split_ifs at h ⊢
      · simp at h
      · simp only [Out.naming,List.mem_cons,reduceCtorEq,false_or] at h
        obtain ⟨rfl,ha,ho⟩ := acceptable_of_accepted h
        exact ⟨rfl,ha,ho⟩
  | logonProof lp =>
    cases lp with
    | none => simp [onRead,handleLogonProof] at h
    | some lp =>
      simp only [onRead,handleLogonProof,commitProof,wrongPassword] at h
      repeat' split at h
      all_goals simp at h
  | reconnectChallenge ch =>
    cases ch with
    | none => simp [onRead,handleReconnectChallenge] at h
    | some ch =>
      simp only [onRead,handleReconnectChallenge] at h
      split at h
      · simp at h
      · split_ifs at h <;> simp at h
  | reconnectProof honest =>
    cases honest with
    | none => simp [onRead,handleReconnectProof] at h
    | some honest =>
      simp only [onRead,handleReconnectProof] at h
      split_ifs at h <;> simp at h
  | realmList complete =>
    simp only [onRead,handleRealmList] at h
    repeat' split at h
    all_goals simp at h

theorem owns_of_accepted {cfg : Config} {ip : String} {db : LoginDatabase} {cmds : List Timed}
    {X : String} {v sl : Nat}
    (h : .accepted X v sl ∈ (Run.exec (Session.step cfg ip) (.new db) cmds).log) :
    Owns (Run.exec (Session.step cfg ip) (.new db) cmds).db X v sl ∧
    ∃ pre c post, cmds = pre ++ c :: post ∧ c.cmd.challenged = some X ∧
      ∃ acc, Acceptable ip c.now (Run.exec (Session.step cfg ip) (.new db) pre).db X acc := by
  obtain hm | ⟨pre,c,post,rfl,hm⟩ := Run.exec_origin
    (fun s c => (onRead cfg ip c.now s.socket s.db c.cmd).effects) (fun _ _ => rfl) h
  · simp [Session.new] at hm
  · obtain ⟨hc,ha,ho⟩ := accepted_onRead hm
    refine ⟨?_,pre,c,post,rfl,hc,ha⟩
    rw [Run.exec_append,Run.exec_cons]
    exact Run.exec_inv (P := fun s : Session => Owns s.db X v sl) (fun s c h => owns_onRead h c.cmd) _ post ho

/-- In every run of orderly commands on one socket, each session key is written only after
an accepted challenge for that account and against its own `v` and `s`, and each realm list
is for the account of the latest successful proof. -/
theorem orderly_run_bound (cfg : Config) (ip : String) (db : LoginDatabase) (cmds : List Timed)
    (h : Run.Guarded (Session.step cfg ip) (Orderly cfg) (.new db) cmds) :
    Run.EachAfter Bound (Run.exec (Session.step cfg ip) (.new db) cmds).log ∧
    ∀ X v s, .accepted X v s ∈ (Run.exec (Session.step cfg ip) (.new db) cmds).log →
      Owns (Run.exec (Session.step cfg ip) (.new db) cmds).db X v s ∧
      ∃ pre c post, cmds = pre ++ c :: post ∧ c.cmd.challenged = some X ∧
        ∃ acc, Acceptable ip c.now (Run.exec (Session.step cfg ip) (.new db) pre).db X acc :=
  ⟨(h.inv (fun _ c hi ho => hi.step cfg ip c ho) (Session.inv_new db)).bound,
   fun _ _ _ hm => owns_of_accepted hm⟩

def exampleDatabase : LoginDatabase where
  accounts :=
    [⟨1,"ATTACKER","hash1",.zero,some (10,11),"",0,"","10.0.0.1",0,0,0,""⟩,
     ⟨2,"VICTIM","hash2",.other 7,some (20,21),"",0,"","10.0.0.2",0,0,0,""⟩]
  accountBanned := [⟨2,5,5,true⟩]
  ipBanned := []
  ip2nation := fun _ => none
  collate := fun name => name

def exampleConfig : Config where
  makeVerifier := fun _ salt => salt
  knows := fun v _ => v == 10
  generateToken := fun _ _ => 0
  wrongPassMaxCount := 0
  wrongPassBanTime := 0
  wrongPassBanType := false

def exampleChallenge (name : String) : Timed := ⟨100,.logonChallenge (some ⟨name,12340,"niW","SUne",3,4⟩)⟩

def exampleProof : Timed := ⟨101,.logonProof (some ⟨5,true,1,0,0⟩)⟩

theorem orderly_run_attacker :
    Run.Guarded (Session.step exampleConfig "10.0.0.1") (Orderly exampleConfig) (.new exampleDatabase)
      [exampleChallenge "ATTACKER",exampleProof,⟨102,.realmList true⟩] ∧
    Run.EachAfter Bound (Run.exec (Session.step exampleConfig "10.0.0.1") (.new exampleDatabase)
      [exampleChallenge "ATTACKER",exampleProof,⟨102,.realmList true⟩]).log := by
  have h : Run.Guarded (Session.step exampleConfig "10.0.0.1") (Orderly exampleConfig)
      (.new exampleDatabase) [exampleChallenge "ATTACKER",exampleProof,⟨102,.realmList true⟩] :=
    ⟨trivial,fun _ => by decide,fun _ => by decide,trivial⟩
  exact ⟨h,(orderly_run_bound _ _ _ _ h).1⟩

/-- A rejected challenge for another account leaves the verifier of the first: the proof of
one account's password then writes the session key of the other. -/
theorem victim_session_key_overwritten :
    ¬ Run.EachAfter Bound (Run.exec (Session.step exampleConfig "10.0.0.1") (.new exampleDatabase)
      [exampleChallenge "ATTACKER",exampleChallenge "VICTIM",exampleProof]).log := by
  intro h
  have hl : (Run.exec (Session.step exampleConfig "10.0.0.1") (.new exampleDatabase)
      [exampleChallenge "ATTACKER",exampleChallenge "VICTIM",exampleProof]).log =
    [.named "ATTACKER",.accepted "ATTACKER" 10 11,.challengeReply .success 0,.named "VICTIM",
      .challengeReply .failBanned 0] ++ .updLogonProof "VICTIM" 10 11 (.shared 1) ::
      [.proofReply .success,.proofOk "VICTIM"] := by decide
  have hb : Effect.accepted "VICTIM" 10 11 ∈ _ := h _ _ _ hl
  simp at hb

end TrinityCore.Auth
