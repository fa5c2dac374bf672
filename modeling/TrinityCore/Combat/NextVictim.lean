import TrinityCore.Combat.LazySort

set_option autoImplicit false

/-!
The victim that is selected. The search ends at a reference that is decisive, and what it has not
found then it does not look for again, so that there are containers in which nobody is found although
somebody can be attacked.
-/

namespace TrinityCore.Combat.ThreatManager

section Choice

variable (w : World) (m : ThreatManager)

def attackable (ref : Nat) : Bool := w.canCreatureAttack (m.guidOf ref)

def secondChoice (ref : Nat) : Bool := w.isSecondChoice (m.guidOf ref)

/-- A target that can be attacked and is not of second choice. -/
def firstChoice (ref : Nat) : Bool := m.attackable w ref && !m.secondChoice w ref

def Beats (victim ref : Nat) : Prop :=
  m.threatOf ref > 13/10*m.threatOf victim ∨
    (m.threatOf ref > 11/10*m.threatOf victim ∧ w.isWithinMeleeRange (m.guidOf ref) = true)

instance (victim ref : Nat) : Decidable (m.Beats w victim ref) :=
  inferInstanceAs (Decidable (_ ∨ _))

/-- More threat than a victim is kept against, and not enough for a change. -/
def InDoubt (victim ref : Nat) : Prop :=
  m.threatOf ref > 11/10*m.threatOf victim ∧ ¬ m.Beats w victim ref

instance (victim ref : Nat) : Decidable (m.InDoubt w victim ref) :=
  inferInstanceAs (Decidable (_ ∧ _))

/-- The target can be attacked and is not in doubt against the current victim. -/
def decisive (currentVictim : Option Nat) (ref : Nat) : Bool :=
  m.attackable w ref && currentVictim.all fun victim => !decide (m.InDoubt w victim ref)

def endsSecond (list : List Nat) : Bool := list.getLast?.any (m.secondChoice w)

def before (victim : Nat) : List Nat := m.threatContainer.takeWhile fun ref => ref != victim

def after (victim : Nat) : List Nat := (m.threatContainer.dropWhile fun ref => ref != victim).tail

/-- Somebody is found who can be attacked, a target of second choice only if there is no other, and
a victim of first choice is left only for one with enough threat. -/
structure Selects (result : Option Nat) : Prop where
  complete : (∃ ref ∈ m.threatContainer, m.attackable w ref = true) →
    ∃ ref ∈ m.threatContainer, result = some ref ∧ m.attackable w ref = true
  prefers : ∀ ref, result = some ref → m.secondChoice w ref = true →
    ∀ other ∈ m.threatContainer, m.firstChoice w other = false
  loyal : ∀ victim, m.currentVictim = some victim → m.firstChoice w victim = true →
    ∀ ref, result = some ref → ref ≠ victim → m.Beats w victim ref

/-- For no victim or one of first choice: a target of first choice is decisive, or nobody can be
attacked, or all the targets are of second choice and one of them is decisive. -/
def Clear (currentVictim : Option Nat) : Prop :=
  (∃ ref ∈ m.threatContainer, m.firstChoice w ref = true ∧ m.decisive w currentVictim ref = true) ∨
  (∀ ref ∈ m.threatContainer, m.attackable w ref = false) ∨
  ((∀ ref ∈ m.threatContainer, m.firstChoice w ref = false) ∧
    m.endsSecond w m.threatContainer = true ∧
    ∃ ref ∈ m.threatContainer, m.decisive w currentVictim ref = true)

/-- A target of first choice before the victim is decisive. -/
def Compared (victim : Nat) : Prop :=
  ∃ ref ∈ m.before victim, m.firstChoice w ref = true ∧ m.decisive w (some victim) ref = true

/-- For a victim of second choice. Before the victim the targets are compared with it, after it they
are not. -/
structure Dropped (victim : Nat) : Prop where
  compared : m.Compared w victim → m.attackable w victim = false ∨
    ∃ ref ∈ m.before victim, m.firstChoice w ref = true ∧ m.Beats w victim ref
  last : ¬ m.Compared w victim → m.after victim = [] → m.Clear w (some victim)
  passed : ¬ m.Compared w victim → m.after victim ≠ [] →
    (∃ ref ∈ m.after victim, m.firstChoice w ref = true) ∨
    (∀ ref ∈ m.threatContainer, m.attackable w ref = false) ∨
    (m.endsSecond w m.threatContainer = true ∧
      ((∀ ref ∈ m.threatContainer, m.firstChoice w ref = false) ∨
        ∃ ref, m.threatContainer.find? (m.attackable w) = some ref ∧ m.firstChoice w ref = true))

def Certain : Prop :=
  match m.currentVictim with
  | none => m.Clear w none
  | some victim =>
    if m.secondChoice w victim then m.Dropped w victim else m.Clear w (some victim)

def choice (currentVictim : Option Nat) (ref : Nat) : Nat :=
  match currentVictim with
  | none => ref
  | some victim =>
    if victim ≠ ref ∧ m.threatOf ref ≤ 11/10*m.threatOf victim ∧ m.attackable w victim = true then
      victim
    else ref

def searchAll (currentVictim : Option Nat) : Option Nat :=
  (m.threatContainer.find? (m.decisive w currentVictim)).map (m.choice w currentVictim)

end Choice

section Search

variable {w : World} {m : ThreatManager} {currentVictim : Option Nat} {list container : List Nat}
  {ref victim : Nat}

theorem selects_eq (hpos : ∀ victim, currentVictim = some victim → 0 ≤ m.threatOf victim)
    (ref : Nat) : m.selects w currentVictim ref =
      if m.decisive w currentVictim ref then some (m.choice w currentVictim ref) else none := by
  cases currentVictim with
  | none => simp [selects,decisive,choice,attackable]
  | some victim =>
    have hv := hpos victim rfl
    by_cases hatt : w.canCreatureAttack (m.guidOf ref) = true
    · by_cases heq : victim = ref
      · subst heq
        have hle : m.threatOf victim ≤ 11/10*m.threatOf victim := by linarith
        simp [selects,decisive,choice,attackable,InDoubt,hatt,hle]
      · by_cases hle : m.threatOf ref ≤ 11/10*m.threatOf victim
        · simp [selects,decisive,choice,attackable,InDoubt,hatt,heq,hle]
          split_ifs <;> rfl
        · simp [selects,decisive,choice,attackable,InDoubt,Beats,hatt,heq,hle]
    · simp [selects,decisive,attackable,hatt]

theorem findSome_selects (hpos : ∀ victim, currentVictim = some victim → 0 ≤ m.threatOf victim)
    (list : List Nat) : list.findSome? (m.selects w currentVictim) =
      (list.find? (m.decisive w currentVictim)).map (m.choice w currentVictim) := by
  induction list with
  | nil => rfl
  | cons ref list ih =>
    rw [List.findSome?_cons,List.find?_cons,selects_eq hpos,ih]
    cases m.decisive w currentVictim ref <;> rfl

theorem endsSecond_cons (h : list ≠ []) : m.endsSecond w (ref :: list) = m.endsSecond w list := by
  cases list with
  | nil => exact absurd rfl h
  | cons next rest => simp [endsSecond]

theorem endsSecond_append (h : list ≠ []) :
    m.endsSecond w (container ++ list) = m.endsSecond w list := by
  induction container with
  | nil => rfl
  | cons first rest ih => rw [List.cons_append,endsSecond_cons (by simp [h]),ih]

/-- The end of a search over targets of first choice. -/
def ends (w : World) (m : ThreatManager) (currentVictim : Option Nat) (ref : Nat) : Bool :=
  m.firstChoice w ref && m.decisive w currentVictim ref

theorem ends_of_secondChoice (h : m.secondChoice w ref = true) :
    m.ends w currentVictim ref = false := by
  simp [ends,firstChoice,h]

theorem ends_of_not_secondChoice (h : m.secondChoice w ref = false) :
    m.ends w currentVictim ref = m.decisive w currentVictim ref := by
  cases hatt : m.attackable w ref <;> simp [ends,firstChoice,decisive,h,hatt]

theorem selectFrom_cons : m.selectFrom w container currentVictim (ref :: list) =
    if m.secondChoice w ref then
      if list = [] then container.findSome? (m.selects w currentVictim)
      else m.selectFrom w container (if currentVictim = some ref then none else currentVictim) list
    else (m.selects w currentVictim ref).or (m.selectFrom w container currentVictim list) := by
  rw [selectFrom.eq_def]
  by_cases hsecond : m.secondChoice w ref = true
  · rw [if_pos hsecond]
    dsimp only
    rw [if_pos (by exact hsecond)]
    cases list with
    | nil => rfl
    | cons next rest => rfl
  · rw [if_neg hsecond]
    dsimp only
    rw [if_neg (by exact hsecond)]
    cases m.selects w currentVictim ref <;> rfl

/-- The search as long as it does not pass the current victim as one of second choice. -/
theorem selectFrom_eq (hpos : ∀ victim, currentVictim = some victim → 0 ≤ m.threatOf victim)
    (hstay : ∀ ref ∈ list, m.secondChoice w ref = true → currentVictim ≠ some ref) :
    m.selectFrom w m.threatContainer currentVictim list =
      ((list.find? (m.ends w currentVictim)).map (m.choice w currentVictim)).or
        (if m.endsSecond w list then m.searchAll w currentVictim else none) := by
  induction list with
  | nil => simp [selectFrom,endsSecond]
  | cons ref rest ih =>
    have ih := ih fun ref href => hstay ref (List.mem_cons_of_mem _ href)
    rw [List.find?_cons,selectFrom_cons]
    by_cases hsecond : m.secondChoice w ref = true
    · rw [ends_of_secondChoice hsecond,if_pos hsecond,
        if_neg (hstay ref List.mem_cons_self hsecond)]
      by_cases hrest : rest = []
      · simp [hrest,endsSecond,hsecond,searchAll,findSome_selects hpos]
      · rw [if_neg hrest,ih,endsSecond_cons hrest]
    · rw [if_neg hsecond]
      rw [Bool.not_eq_true] at hsecond
      rw [ends_of_not_secondChoice hsecond,selects_eq hpos]
      cases hdecisive : m.decisive w currentVictim ref with
      | true => rfl
      | false =>
        simp only [Bool.false_eq_true,if_false,Option.none_or]
        rw [ih]
        by_cases hrest : rest = []
        · simp [hrest,endsSecond,hsecond]
        · rw [endsSecond_cons hrest]

theorem selectFrom_pass (hpos : 0 ≤ m.threatOf victim) (hvictim : m.secondChoice w victim = true)
    {front back : List Nat} (hfront : victim ∉ front) :
    m.selectFrom w m.threatContainer (some victim) (front ++ victim :: back) =
      ((front.find? (m.ends w (some victim))).map (m.choice w (some victim))).or
        (if back = [] then m.searchAll w (some victim)
         else m.selectFrom w m.threatContainer none back) := by
  have hposSome : ∀ other, some victim = some other → 0 ≤ m.threatOf other := by
    intro other hother
    rwa [← Option.some.inj hother]
  induction front with
  | nil =>
    rw [List.nil_append,selectFrom_cons,if_pos hvictim,if_pos rfl,findSome_selects hposSome]
    rfl
  | cons ref front ih =>
    have hne : victim ≠ ref := fun h => hfront (h ▸ List.mem_cons_self)
    have ih := ih fun h => hfront (List.mem_cons_of_mem _ h)
    rw [List.cons_append,List.find?_cons,selectFrom_cons]
    by_cases hsecond : m.secondChoice w ref = true
    · rw [ends_of_secondChoice hsecond,if_pos hsecond,if_neg (by simp),
        if_neg (fun h => hne (Option.some.inj h)),ih]
    · rw [if_neg hsecond]
      rw [Bool.not_eq_true] at hsecond
      rw [ends_of_not_secondChoice hsecond,selects_eq hposSome,ih]
      cases hdecisive : m.decisive w (some victim) ref with
      | true => rfl
      | false => rfl

theorem container_eq (h : victim ∈ m.threatContainer) :
    m.threatContainer = m.before victim ++ victim :: m.after victim := by
  unfold before after
  generalize m.threatContainer = list at h
  induction list with
  | nil => cases h
  | cons ref rest ih =>
    by_cases heq : ref = victim
    · simp [heq]
    · have hrest := (List.mem_cons.mp h).resolve_left fun h => heq h.symm
      have hbne : (ref != victim) = true := by simpa using heq
      rw [List.takeWhile_cons,List.dropWhile_cons,if_pos hbne,if_pos hbne,List.cons_append,
        ← ih hrest]

theorem not_mem_before : victim ∉ m.before victim := by
  intro h
  simpa using List.mem_takeWhile_imp h

theorem ends_eq_true : m.ends w currentVictim ref = true ↔
    m.firstChoice w ref = true ∧ m.decisive w currentVictim ref = true := by
  simp [ends]

theorem attackable_of_decisive (h : m.decisive w currentVictim ref = true) :
    m.attackable w ref = true := by
  simp only [decisive,Bool.and_eq_true] at h
  exact h.1

theorem decisive_none (ref : Nat) : m.decisive w none ref = m.attackable w ref := by
  simp [decisive]

theorem decisive_victim (hpos : 0 ≤ m.threatOf victim) (h : m.attackable w victim = true) :
    m.decisive w (some victim) victim = true := by
  have hle : ¬ m.threatOf victim > 11/10*m.threatOf victim := by linarith
  simp [decisive,InDoubt,h,hle]

theorem choice_cases (currentVictim : Option Nat) (ref : Nat) :
    m.choice w currentVictim ref = ref ∨
      (currentVictim = some (m.choice w currentVictim ref) ∧
        m.attackable w (m.choice w currentVictim ref) = true) := by
  cases currentVictim with
  | none => exact .inl rfl
  | some victim =>
    dsimp only [choice]
    split_ifs with h
    · exact .inr ⟨rfl,h.2.2⟩
    · exact .inl rfl

end Search

section Right

variable {w : World} {m : ThreatManager} {result : Option Nat} {ref victim : Nat}

theorem selects_nobody :
    m.Selects w none ↔ ∀ ref ∈ m.threatContainer, m.attackable w ref = false := by
  constructor
  · intro h ref href
    by_contra hatt
    obtain ⟨found,-,hfound,-⟩ := h.complete ⟨ref,href,by simpa using hatt⟩
    cases hfound
  · intro h
    exact {
      complete := by
        rintro ⟨ref,href,hatt⟩
        rw [h ref href] at hatt
        cases hatt
      prefers := by
        intro ref href
        cases href
      loyal := by
        intro victim hvictim hfirst ref href
        cases href }

theorem firstChoice_iff :
    m.firstChoice w ref = true ↔ m.attackable w ref = true ∧ m.secondChoice w ref = false := by
  simp [firstChoice]

theorem selects_first (href : ref ∈ m.threatContainer) (hfirst : m.firstChoice w ref = true)
    (hloyal : ∀ victim, m.currentVictim = some victim → m.firstChoice w victim = true →
      ref ≠ victim → m.Beats w victim ref) : m.Selects w (some ref) where
  complete := fun _ => ⟨ref,href,rfl,(firstChoice_iff.mp hfirst).1⟩
  prefers := by
    intro found hfound hsecond
    rw [← Option.some.inj hfound,(firstChoice_iff.mp hfirst).2] at hsecond
    cases hsecond
  loyal := by
    intro victim hvictim hvictimFirst found hfound hne
    obtain rfl := Option.some.inj hfound
    exact hloyal victim hvictim hvictimFirst hne

theorem selects_second (href : ref ∈ m.threatContainer) (hatt : m.attackable w ref = true)
    (hsecond : m.secondChoice w ref = true)
    (hvictim : ∀ victim, m.currentVictim = some victim → m.firstChoice w victim = false) :
    m.Selects w (some ref) ↔ ∀ other ∈ m.threatContainer, m.firstChoice w other = false := by
  constructor
  · intro h
    exact h.prefers ref rfl hsecond
  · intro h
    exact {
      complete := fun _ => ⟨ref,href,rfl,hatt⟩
      prefers := fun _ _ _ => h
      loyal := by
        intro victim hcur hfirst
        rw [hvictim victim hcur] at hfirst
        cases hfirst }

/-- The search without leaving out any, where no target of first choice is decisive. -/
theorem selects_searchAll
    (hpos : ∀ victim, m.currentVictim = some victim → 0 ≤ m.threatOf victim)
    (hmem : ∀ victim, m.currentVictim = some victim → victim ∈ m.threatContainer)
    (hnone : ∀ ref ∈ m.threatContainer, m.ends w m.currentVictim ref = false) :
    m.Selects w (m.searchAll w m.currentVictim) ↔
      (∀ ref ∈ m.threatContainer, m.attackable w ref = false) ∨
      ((∀ ref ∈ m.threatContainer, m.firstChoice w ref = false) ∧
        ∃ ref ∈ m.threatContainer, m.decisive w m.currentVictim ref = true) := by
  have hsecond : ∀ ref ∈ m.threatContainer, m.decisive w m.currentVictim ref = true →
      m.secondChoice w ref = true := by
    intro ref href hdecisive
    by_contra hsecond
    rw [Bool.not_eq_true] at hsecond
    have hends := hnone ref href
    rw [ends_of_not_secondChoice hsecond,hdecisive] at hends
    cases hends
  have hvictim : ∀ victim, m.currentVictim = some victim → m.attackable w victim = true →
      m.secondChoice w victim = true := by
    intro victim hcur hatt
    apply hsecond victim (hmem victim hcur)
    rw [hcur]
    exact decisive_victim (hpos victim hcur) hatt
  unfold searchAll
  cases hfind : m.threatContainer.find? (m.decisive w m.currentVictim) with
  | none =>
    rw [List.find?_eq_none] at hfind
    rw [Option.map_none,selects_nobody]
    constructor
    · exact .inl
    · rintro (h | ⟨-,ref,href,hdecisive⟩)
      · exact h
      · exact absurd hdecisive (hfind ref href)
  | some ref =>
    have href := List.mem_of_find?_eq_some hfind
    have hdecisive := List.find?_some hfind
    have hatt := attackable_of_decisive hdecisive
    have hchoice : m.choice w m.currentVictim ref ∈ m.threatContainer ∧
        m.attackable w (m.choice w m.currentVictim ref) = true ∧
        m.secondChoice w (m.choice w m.currentVictim ref) = true := by
      rcases choice_cases (w := w) (m := m) m.currentVictim ref with heq | ⟨hcur,hattV⟩
      · rw [heq]
        exact ⟨href,hatt,hsecond ref href hdecisive⟩
      · exact ⟨hmem _ hcur,hattV,hvictim _ hcur hattV⟩
    rw [Option.map_some,selects_second hchoice.1 hchoice.2.1 hchoice.2.2]
    · constructor
      · intro h
        exact .inr ⟨h,ref,href,hdecisive⟩
      · rintro (h | h)
        · rw [h ref href] at hatt
          cases hatt
        · exact h.1
    · intro victim hcur
      by_contra hfirst
      obtain ⟨hattV,hsecondV⟩ := firstChoice_iff.mp (by simpa using hfirst)
      rw [hvictim victim hcur hattV] at hsecondV
      cases hsecondV

theorem selects_choice (hmem : ∀ victim, m.currentVictim = some victim → victim ∈ m.threatContainer)
    (hvictim : ∀ victim, m.currentVictim = some victim → m.secondChoice w victim = false)
    (href : ref ∈ m.threatContainer) (hends : m.ends w m.currentVictim ref = true) :
    m.Selects w (some (m.choice w m.currentVictim ref)) := by
  obtain ⟨hfirst,hdecisive⟩ := ends_eq_true.mp hends
  rcases choice_cases (w := w) (m := m) m.currentVictim ref with heq | ⟨hcur,hattV⟩
  · rw [heq]
    apply selects_first href hfirst
    intro victim hcur hvictimFirst hne
    obtain ⟨hattV,-⟩ := firstChoice_iff.mp hvictimFirst
    rw [hcur] at heq hdecisive
    by_contra hbeats
    have hle : m.threatOf ref ≤ 11/10*m.threatOf victim := by
      by_contra hlt
      simp [decisive,InDoubt,hbeats,not_le.mp hlt] at hdecisive
    rw [choice,if_pos ⟨hne.symm,hle,hattV⟩] at heq
    exact hne heq.symm
  · apply selects_first (hmem _ hcur) (firstChoice_iff.mpr ⟨hattV,hvictim _ hcur⟩)
    intro victim hvictimCur hvictimFirst hne
    rw [hcur] at hvictimCur
    exact absurd (Option.some.inj hvictimCur) hne

theorem selects_clear
    (hpos : ∀ victim, m.currentVictim = some victim → 0 ≤ m.threatOf victim)
    (hmem : ∀ victim, m.currentVictim = some victim → victim ∈ m.threatContainer)
    (hvictim : ∀ victim, m.currentVictim = some victim → m.secondChoice w victim = false) :
    m.Selects w (m.selectNextVictim w) ↔ m.Clear w m.currentVictim := by
  have hstay : ∀ ref ∈ m.threatContainer, m.secondChoice w ref = true →
      m.currentVictim ≠ some ref := by
    intro ref href hsecond hcur
    rw [hvictim ref hcur] at hsecond
    cases hsecond
  rw [selectNextVictim,selectFrom_eq hpos hstay]
  cases hfind : m.threatContainer.find? (m.ends w m.currentVictim) with
  | some ref =>
    have href := List.mem_of_find?_eq_some hfind
    have hends := List.find?_some hfind
    rw [Option.map_some,Option.some_or]
    constructor
    · intro h
      exact .inl ⟨ref,href,ends_eq_true.mp hends⟩
    · intro h
      exact selects_choice hmem hvictim href hends
  | none =>
    have hnone : ∀ ref ∈ m.threatContainer, m.ends w m.currentVictim ref = false := by
      simpa using hfind
    have hfirst : ¬ ∃ ref ∈ m.threatContainer, m.firstChoice w ref = true ∧
        m.decisive w m.currentVictim ref = true := by
      rintro ⟨ref,href,h⟩
      have hends := hnone ref href
      rw [ends_eq_true.mpr h] at hends
      cases hends
    rw [Option.map_none,Option.none_or,Clear,or_iff_right hfirst]
    by_cases hlast : m.endsSecond w m.threatContainer = true
    · simp only [hlast,if_true,true_and]
      exact selects_searchAll hpos hmem hnone
    · rw [if_neg hlast,selects_nobody]
      constructor
      · exact .inl
      · rintro (h | ⟨-,hends,-⟩)
        · exact h
        · exact absurd hends hlast

end Right

section Victim

variable {w : World} {m : ThreatManager} {ref victim : Nat}

theorem gt_of_beats (hpos : 0 ≤ m.threatOf victim) (h : m.Beats w victim ref) :
    m.threatOf ref > 11/10*m.threatOf victim := by
  rcases h with h | ⟨h,-⟩
  · linarith
  · exact h

theorem decisive_of_beats (hatt : m.attackable w ref = true) (h : m.Beats w victim ref) :
    m.decisive w (some victim) ref = true := by
  simp [decisive,InDoubt,hatt,h]

theorem mem_of_mem_before (h : ref ∈ m.before victim) : ref ∈ m.threatContainer :=
  (List.takeWhile_sublist _).subset h

/-- The first decisive target of first choice before the victim is not kept back by it if some
target there beats it: the first has as much threat. -/
theorem beats_first (hsorted : m.SortedByThreat) (hpos : 0 ≤ m.threatOf victim)
    (hfind : (m.before victim).find? (m.ends w (some victim)) = some ref) {other : Nat}
    (hother : other ∈ m.before victim) (hfirst : m.firstChoice w other = true)
    (hbeats : m.Beats w victim other) : m.threatOf ref > 11/10*m.threatOf victim := by
  obtain ⟨-,front,back,heq,hfront⟩ := List.find?_eq_some_iff_append.mp hfind
  have hends : m.ends w (some victim) other = true :=
    ends_eq_true.mpr ⟨hfirst,decisive_of_beats (firstChoice_iff.mp hfirst).1 hbeats⟩
  have hgt := gt_of_beats hpos hbeats
  have hpair : (m.before victim).Pairwise m.mayPrecede :=
    hsorted.sublist (List.takeWhile_sublist _)
  rw [heq] at hother hpair
  rcases List.mem_append.mp hother with h | h
  · have hfalse := hfront other h
    rw [hends] at hfalse
    cases hfalse
  · rcases List.mem_cons.mp h with rfl | h
    · exact hgt
    · have hle : m.threatOf other ≤ m.threatOf ref :=
        (List.pairwise_cons.mp (List.pairwise_append.mp hpair).2.1).1 other h
      linarith

theorem selects_compared (hsorted : m.SortedByThreat) (hpos : 0 ≤ m.threatOf victim)
    (hcur : m.currentVictim = some victim) (hsecond : m.secondChoice w victim = true)
    (hfind : (m.before victim).find? (m.ends w (some victim)) = some ref) :
    m.Selects w (some (m.choice w (some victim) ref)) ↔
      (m.attackable w victim = false ∨
        ∃ ref ∈ m.before victim, m.firstChoice w ref = true ∧ m.Beats w victim ref) := by
  have hbefore := List.mem_of_find?_eq_some hfind
  have href := mem_of_mem_before hbefore
  obtain ⟨hfirst,hdecisive⟩ := ends_eq_true.mp (List.find?_some hfind)
  have hne : victim ≠ ref := fun h => not_mem_before (h ▸ hbefore)
  have hsome : m.Selects w (some ref) := by
    apply selects_first href hfirst
    intro other hother hotherFirst
    rw [hcur] at hother
    rw [← Option.some.inj hother,firstChoice_iff,hsecond] at hotherFirst
    cases hotherFirst.2
  dsimp only [choice]
  split_ifs with hkeep
  · obtain ⟨-,hle,hattV⟩ := hkeep
    constructor
    · intro h
      have hno := h.prefers victim rfl hsecond ref href
      rw [hfirst] at hno
      cases hno
    · rintro (h | ⟨other,hother,hotherFirst,hbeats⟩)
      · rw [hattV] at h
        cases h
      · exact absurd (beats_first hsorted hpos hfind hother hotherFirst hbeats) (not_lt.mpr hle)
  · refine ⟨fun _ => ?_,fun _ => hsome⟩
    by_cases hattV : m.attackable w victim = true
    · have hlt : ¬ m.threatOf ref ≤ 11/10*m.threatOf victim := fun hle => hkeep ⟨hne,hle,hattV⟩
      refine .inr ⟨ref,hbefore,hfirst,?_⟩
      by_contra hbeats
      simp [decisive,InDoubt,hbeats,not_le.mp hlt] at hdecisive
    · exact .inl (by simpa using hattV)

theorem selects_passed (hcur : m.currentVictim = some victim) (hmem : victim ∈ m.threatContainer)
    (hsecond : m.secondChoice w victim = true) (hback : m.after victim ≠ []) :
    m.Selects w (m.selectFrom w m.threatContainer none (m.after victim)) ↔
      (∃ ref ∈ m.after victim, m.firstChoice w ref = true) ∨
      (∀ ref ∈ m.threatContainer, m.attackable w ref = false) ∨
      (m.endsSecond w m.threatContainer = true ∧
        ((∀ ref ∈ m.threatContainer, m.firstChoice w ref = false) ∨
          ∃ ref, m.threatContainer.find? (m.attackable w) = some ref ∧
            m.firstChoice w ref = true)) := by
  have hvictim : ∀ other, m.currentVictim = some other → m.firstChoice w other = false := by
    intro other hother
    rw [hcur] at hother
    rw [← Option.some.inj hother,firstChoice,hsecond]
    simp
  have hends : m.endsSecond w (m.after victim) = m.endsSecond w m.threatContainer := by
    conv_rhs => rw [container_eq hmem,endsSecond_append (List.cons_ne_nil _ _)]
    exact (endsSecond_cons hback).symm
  have hfirstEnds : m.ends w none = m.firstChoice w := by
    funext ref
    cases hatt : m.attackable w ref <;> simp [ends,firstChoice,decisive,hatt]
  have hfirstChoice : ∀ ref ∈ m.threatContainer, m.firstChoice w ref = true →
      m.Selects w (some ref) := by
    intro ref href hfirst
    apply selects_first href hfirst
    intro other hother hotherFirst
    rw [hvictim other hother] at hotherFirst
    cases hotherFirst
  rw [selectFrom_eq (by simp) (by simp),hends,hfirstEnds]
  cases hfind : (m.after victim).find? (m.firstChoice w) with
  | some ref =>
    have hafter := List.mem_of_find?_eq_some hfind
    have hfirst := List.find?_some hfind
    have href : ref ∈ m.threatContainer := by
      rw [container_eq hmem]
      simp [hafter]
    exact ⟨fun _ => .inl ⟨ref,hafter,hfirst⟩,fun _ => hfirstChoice ref href hfirst⟩
  | none =>
    have hnone : ¬ ∃ ref ∈ m.after victim, m.firstChoice w ref = true := by
      rw [List.find?_eq_none] at hfind
      rintro ⟨ref,href,h⟩
      exact hfind ref href h
    rw [Option.map_none,Option.none_or,or_iff_right hnone]
    by_cases hlast : m.endsSecond w m.threatContainer = true
    · have hdecisive : m.decisive w none = m.attackable w := funext decisive_none
      simp only [hlast,if_true,true_and,searchAll,hdecisive]
      cases hfound : m.threatContainer.find? (m.attackable w) with
      | none =>
        rw [Option.map_none,selects_nobody]
        rw [List.find?_eq_none] at hfound
        have hnobody : ∀ ref ∈ m.threatContainer, m.attackable w ref = false := by
          simpa using hfound
        exact ⟨.inl,fun _ => hnobody⟩
      | some ref =>
        have href := List.mem_of_find?_eq_some hfound
        have hatt := List.find?_some hfound
        rw [Option.map_some,show m.choice w none ref = ref from rfl]
        by_cases hfirst : m.firstChoice w ref = true
        · exact ⟨fun _ => .inr (.inr ⟨ref,rfl,hfirst⟩),fun _ => hfirstChoice ref href hfirst⟩
        · have hrefSecond : m.secondChoice w ref = true := by
            simpa [firstChoice,hatt] using hfirst
          rw [selects_second href hatt hrefSecond hvictim]
          constructor
          · exact fun h => .inr (.inl h)
          · rintro (h | h | ⟨other,hother,hotherFirst⟩)
            · rw [h ref href] at hatt
              cases hatt
            · exact h
            · rw [← Option.some.inj hother] at hotherFirst
              exact absurd hotherFirst hfirst
    · rw [if_neg hlast,selects_nobody]
      constructor
      · exact .inl
      · rintro (h | ⟨h,-⟩)
        · exact h
        · exact absurd h hlast

theorem selects_dropped (hsorted : m.SortedByThreat) (hpos : 0 ≤ m.threatOf victim)
    (hcur : m.currentVictim = some victim) (hmem : victim ∈ m.threatContainer)
    (hsecond : m.secondChoice w victim = true) :
    m.Selects w (m.selectNextVictim w) ↔ m.Dropped w victim := by
  have hnext : m.selectNextVictim w =
      (((m.before victim).find? (m.ends w (some victim))).map (m.choice w (some victim))).or
        (if m.after victim = [] then m.searchAll w (some victim)
         else m.selectFrom w m.threatContainer none (m.after victim)) := by
    rw [← selectFrom_pass hpos hsecond not_mem_before,← container_eq hmem,selectNextVictim,hcur]
  rw [hnext]
  cases hfind : (m.before victim).find? (m.ends w (some victim)) with
  | some ref =>
    have hcompared : m.Compared w victim :=
      ⟨ref,List.mem_of_find?_eq_some hfind,ends_eq_true.mp (List.find?_some hfind)⟩
    rw [Option.map_some,Option.some_or,selects_compared hsorted hpos hcur hsecond hfind]
    constructor
    · intro h
      exact ⟨fun _ => h,fun hno => absurd hcompared hno,fun hno => absurd hcompared hno⟩
    · intro h
      exact h.compared hcompared
  | none =>
    have hcompared : ¬ m.Compared w victim := by
      rw [List.find?_eq_none] at hfind
      rintro ⟨ref,href,h⟩
      exact hfind ref href (ends_eq_true.mpr h)
    rw [Option.map_none,Option.none_or]
    by_cases hback : m.after victim = []
    · have hcontainer : m.threatContainer = m.before victim ++ [victim] := by
        rw [← hback]
        exact container_eq hmem
      have hnone : ∀ ref ∈ m.threatContainer, m.ends w m.currentVictim ref = false := by
        intro ref href
        rw [hcontainer,List.mem_append,List.mem_singleton] at href
        rcases href with href | rfl
        · rw [hcur]
          simpa using List.find?_eq_none.mp hfind ref href
        · exact ends_of_secondChoice hsecond
      have hlast : m.endsSecond w m.threatContainer = true := by
        rw [hcontainer,endsSecond_append (by simp)]
        simpa [endsSecond] using hsecond
      have hposAll : ∀ other, m.currentVictim = some other → 0 ≤ m.threatOf other := by
        intro other hother
        rw [hcur] at hother
        rwa [← Option.some.inj hother]
      have hmemAll : ∀ other, m.currentVictim = some other → other ∈ m.threatContainer := by
        intro other hother
        rw [hcur] at hother
        rwa [← Option.some.inj hother]
      have hfirst : ¬ ∃ ref ∈ m.threatContainer, m.firstChoice w ref = true ∧
          m.decisive w (some victim) ref = true := by
        rintro ⟨ref,href,h⟩
        have hends := hnone ref href
        rw [hcur,ends_eq_true.mpr h] at hends
        cases hends
      have hsearch := selects_searchAll hposAll hmemAll hnone
      rw [hcur] at hsearch
      rw [if_pos hback,hsearch]
      constructor
      · intro h
        refine ⟨fun h => absurd h hcompared,fun _ _ => ?_,fun _ hne => absurd hback hne⟩
        rw [Clear,or_iff_right hfirst]
        simpa only [hlast,true_and] using h
      · intro h
        have hclear := h.last hcompared hback
        rw [Clear,or_iff_right hfirst] at hclear
        simpa only [hlast,true_and] using hclear
    · rw [if_neg hback,selects_passed hcur hmem hsecond hback]
      constructor
      · intro h
        exact ⟨fun h => absurd h hcompared,fun _ hnil => absurd hnil hback,fun _ _ => h⟩
      · intro h
        exact h.passed hcompared hback

/-- The right victim is selected exactly when the search comes to a right end. -/
theorem selects_iff_certain (w : World) (m : ThreatManager) (hsorted : m.SortedByThreat)
    (hpos : ∀ ref ∈ m.threatContainer, 0 ≤ m.threatOf ref)
    (hmem : ∀ victim, m.currentVictim = some victim → victim ∈ m.threatContainer) :
    m.Selects w (m.selectNextVictim w) ↔ m.Certain w := by
  have hposVictim : ∀ victim, m.currentVictim = some victim → 0 ≤ m.threatOf victim :=
    fun victim hcur => hpos victim (hmem victim hcur)
  unfold Certain
  split
  · rename_i hcur
    have hclear := selects_clear (w := w) hposVictim hmem (by simp [hcur])
    rwa [hcur] at hclear
  · rename_i victim hcur
    split_ifs with hsecond
    · exact selects_dropped hsorted (hposVictim victim hcur) hcur (hmem victim hcur) hsecond
    · have hvictim : ∀ other, m.currentVictim = some other → m.secondChoice w other = false := by
        intro other hother
        rw [hcur] at hother
        rw [← Option.some.inj hother]
        simpa using hsecond
      have hclear := selects_clear hposVictim hmem hvictim
      rwa [hcur] at hclear

def hatesTwo (threat : ℚ) : ThreatManager where
  refs := fun ref =>
    if ref = 0 then some ⟨1,threat,0,true,true,true⟩
    else if ref = 1 then some ⟨2,100,0,true,true,true⟩
    else none
  next := 2
  threatContainer := [0,1]
  dirty := false
  threatOfflineContainer := []
  currentVictim := some 1

theorem hatesTwo_certain : (hatesTwo 140).Selects (openField [])
    ((hatesTwo 140).selectNextVictim (openField [])) := by
  refine (selects_iff_certain (openField []) (hatesTwo 140) (by decide) ?_ ?_).mpr ?_
  · decide
  · intro victim hcur
    cases hcur
    decide
  · exact .inl ⟨0,by decide,by decide,by decide +kernel⟩

/-- Only the first of the units can be attacked. -/
def fled : World := { openField [] with canCreatureAttack := fun unit => unit = 1 }

/-- The victim cannot be attacked any more. The other unit has 120% of its threat and is not in melee
range: nobody is found. -/
theorem hatesTwo_nobody :
    ¬ (hatesTwo 120).Selects fled ((hatesTwo 120).selectNextVictim fled) := by
  intro h
  obtain ⟨ref,-,href,-⟩ := h.complete ⟨0,by decide,by decide⟩
  have hnone : (hatesTwo 120).selectNextVictim fled = none := by decide +kernel
  rw [hnone] at href
  cases href

end Victim

end TrinityCore.Combat.ThreatManager
