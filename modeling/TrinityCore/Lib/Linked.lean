import Mathlib

set_option autoImplicit false

/-!
Doubly linked chains that are written one after another into one map, element by element. What a
later chain writes for an element takes the place of what an earlier one has written. The links of
the map are sound if and only if no chain is cut by that.
-/

namespace Linked

variable {σ : Type} [DecidableEq σ]

structure Node (σ : Type) where
  prev : Option σ
  next : Option σ
  first : Option σ
  last : Option σ
  rank : Nat
  deriving DecidableEq, Repr

/-- What the nodes of a chain are made of. Its ends are linked to what is given for them. -/
structure Chain (σ : Type) where
  elems : List σ
  first : Option σ
  last : Option σ
  before : Option σ
  after : Option σ
  deriving DecidableEq, Repr

def Chain.node (c : Chain σ) (xs ys : List σ) : Node σ where
  prev := if xs = [] then c.before else xs.getLast?
  next := if ys = [] then c.after else ys.head?
  first := c.first
  last := c.last
  rank := xs.length+1

abbrev Nodes (σ : Type) := σ → Option (Node σ)

def Chain.writeFrom (c : Chain σ) : List σ → List σ → Nodes σ → Nodes σ
  | _, [], m => m
  | xs, s :: ys, m => c.writeFrom (xs ++ [s]) ys (Function.update m s (some (c.node xs ys)))

def Chain.write (m : Nodes σ) (c : Chain σ) : Nodes σ := c.writeFrom [] c.elems m

def write (cs : List (Chain σ)) : Nodes σ := cs.foldl Chain.write fun _ => none

/-- Neither the rest of its chain nor a later chain writes the element again. -/
def Kept (s : σ) (ys : List σ) (later : List (Chain σ)) : Prop :=
  s ∉ ys ∧ ∀ d ∈ later, s ∉ d.elems

/-- The element is kept as it is written between the given ones of a chain of the list. -/
structure KeptIn (cs : List (Chain σ)) (c : Chain σ) (xs : List σ) (s : σ) (ys : List σ)
    (later : List (Chain σ)) : Prop where
  mem : ∃ earlier, cs = earlier ++ c :: later
  elems : c.elems = xs ++ s :: ys
  kept : Kept s ys later

/-- Whatever is kept of a chain is kept with its neighbours, and up to the end of the chain. -/
structure Intact (cs : List (Chain σ)) : Prop where
  before : ∀ c s ys later, KeptIn cs c [] s ys later → c.before = none
  prev : ∀ c xs x s ys later, KeptIn cs c (xs ++ [x]) s ys later → ∀ d ∈ later, x ∉ d.elems
  next : ∀ c xs s y ys later, KeptIn cs c xs s (y :: ys) later → Kept y ys later
  after : ∀ c xs s later, KeptIn cs c xs s [] later → c.after = none
  last : ∀ c xs s later, KeptIn cs c xs s [] later → c.last = some s

structure Sound (m : Nodes σ) : Prop where
  rank_one : ∀ s n, m s = some n → (n.rank = 1 ↔ n.prev = none)
  last_self : ∀ s n, m s = some n → (n.last = some s ↔ n.next = none)
  next : ∀ s n t, m s = some n → n.next = some t →
    ∃ n', m t = some n' ∧ n'.prev = some s ∧ n'.rank = n.rank+1
  ends : ∀ s n t, m s = some n → n.next = some t ∨ n.prev = some t →
    ∃ n', m t = some n' ∧ n'.first = n.first ∧ n'.last = n.last

/-- What stands for no element behind a chain is not an element up to there. -/
def AfterFresh (cs : List (Chain σ)) : Prop :=
  ∀ earlier c later t, cs = earlier ++ c :: later → c.after = some t →
    t ∉ c.elems ∧ ∀ d ∈ earlier, t ∉ d.elems

section Writing

theorem writeFrom_of_notMem {c : Chain σ} {xs ys : List σ} {m : Nodes σ} {s : σ} (hs : s ∉ ys) :
    c.writeFrom xs ys m s = m s := by
  induction ys generalizing xs m with
  | nil => rfl
  | cons y ys ih =>
    rw [List.mem_cons,not_or] at hs
    rw [Chain.writeFrom,ih hs.2,Function.update_of_ne hs.1]

theorem writeFrom_of_kept {c : Chain σ} {xs xs' ys : List σ} {m : Nodes σ} {s : σ} (hs : s ∉ ys) :
    c.writeFrom xs (xs' ++ s :: ys) m s = some (c.node (xs ++ xs') ys) := by
  induction xs' generalizing xs m with
  | nil =>
    rw [List.nil_append,Chain.writeFrom,writeFrom_of_notMem hs,Function.update_self,
      List.append_nil]
  | cons x xs' ih => rw [List.cons_append,Chain.writeFrom,ih,List.append_assoc,List.singleton_append]

theorem foldl_write_of_notMem {cs : List (Chain σ)} {m : Nodes σ} {s : σ}
    (hs : ∀ c ∈ cs, s ∉ c.elems) : cs.foldl Chain.write m s = m s := by
  induction cs generalizing m with
  | nil => rfl
  | cons c cs ih =>
    rw [List.foldl_cons,ih fun d hd => hs d (List.mem_cons_of_mem c hd)]
    exact writeFrom_of_notMem (hs c (List.mem_cons_self ..))

theorem KeptIn.write_eq {cs : List (Chain σ)} {c : Chain σ} {xs ys : List σ} {s : σ}
    {later : List (Chain σ)} (h : KeptIn cs c xs s ys later) :
    write cs s = some (c.node xs ys) := by
  obtain ⟨earlier,rfl⟩ := h.mem
  unfold write
  rw [List.foldl_append,List.foldl_cons,foldl_write_of_notMem h.kept.2]
  unfold Chain.write
  rw [h.elems,writeFrom_of_kept h.kept.1,List.nil_append]

theorem exists_last_of_mem {s : σ} {l : List σ} (hs : s ∈ l) :
    ∃ xs ys, l = xs ++ s :: ys ∧ s ∉ ys := by
  induction l with
  | nil => cases hs
  | cons a l ih =>
    by_cases hl : s ∈ l
    · obtain ⟨xs,ys,rfl,hys⟩ := ih hl
      exact ⟨a :: xs,ys,rfl,hys⟩
    · obtain rfl := (List.mem_cons.mp hs).resolve_right hl
      exact ⟨[],l,rfl,hl⟩

theorem exists_keptIn {cs : List (Chain σ)} {s : σ} {n : Node σ} (hs : write cs s = some n) :
    ∃ c xs ys later, KeptIn cs c xs s ys later ∧ n = c.node xs ys := by
  induction cs using List.reverseRecOn with
  | nil => cases hs
  | append_singleton cs c ih =>
    by_cases hmem : s ∈ c.elems
    · obtain ⟨xs,ys,helems,hys⟩ := exists_last_of_mem hmem
      have hkept : KeptIn (cs ++ [c]) c xs s ys [] :=
        ⟨⟨cs,rfl⟩,helems,hys,fun d hd => absurd hd List.not_mem_nil⟩
      exact ⟨c,xs,ys,[],hkept,Option.some.inj (hs.symm.trans hkept.write_eq)⟩
    · have hbefore : write (cs ++ [c]) s = write cs s := by
        unfold write
        rw [List.foldl_append]
        exact writeFrom_of_notMem hmem
      obtain ⟨d,xs,ys,later,hkept,hn⟩ := ih (hbefore ▸ hs)
      obtain ⟨earlier,hcs⟩ := hkept.mem
      refine ⟨d,xs,ys,later ++ [c],⟨⟨earlier,by rw [hcs]; simp⟩,hkept.elems,hkept.kept.1,?_⟩,hn⟩
      intro e he
      rcases List.mem_append.mp he with he | he
      · exact hkept.kept.2 e he
      · rwa [List.mem_singleton.mp he]

end Writing

section Soundness

variable {cs : List (Chain σ)} {c : Chain σ} {xs ys : List σ} {s : σ} {later : List (Chain σ)}

theorem split_cases {α : Type} {l l' r r' : List α} {a a' : α} (h : l ++ a :: r = l' ++ a' :: r') :
    (a = a' ∧ r = r') ∨ (a' ∈ r ∧ a ∈ l') ∨ (a ∈ r' ∧ a' ∈ l) := by
  rcases List.append_eq_append_iff.mp h with ⟨m,rfl,hr⟩ | ⟨m,rfl,hr⟩
  · cases m with
    | nil =>
      obtain ⟨rfl,rfl⟩ := List.cons.inj hr
      exact Or.inl ⟨rfl,rfl⟩
    | cons b m =>
      obtain ⟨rfl,rfl⟩ := List.cons.inj hr
      exact Or.inr (Or.inl ⟨by simp,by simp⟩)
  · cases m with
    | nil =>
      obtain ⟨rfl,rfl⟩ := List.cons.inj hr
      exact Or.inl ⟨rfl,rfl⟩
    | cons b m =>
      obtain ⟨rfl,rfl⟩ := List.cons.inj hr
      exact Or.inr (Or.inr ⟨by simp,by simp⟩)

omit [DecidableEq σ] in
theorem KeptIn.mem_elems (h : KeptIn cs c xs s ys later) : s ∈ c.elems := by
  rw [h.elems]
  simp

omit [DecidableEq σ] in
theorem KeptIn.step {y : σ} (h : KeptIn cs c xs s (y :: ys) later) (hy : Kept y ys later) :
    KeptIn cs c (xs ++ [s]) y ys later :=
  ⟨h.mem,by rw [h.elems]; simp,hy⟩

omit [DecidableEq σ] in
theorem KeptIn.last_kept (h : KeptIn cs c xs s ys later)
    (hnext : ∀ xs s y ys, KeptIn cs c xs s (y :: ys) later → Kept y ys later)
    (hlast : ∀ xs s, KeptIn cs c xs s [] later → c.last = some s) :
    ∃ xs' e, KeptIn cs c xs' e [] later ∧ c.last = some e ∧ (s :: ys).getLast? = some e := by
  induction ys generalizing xs s with
  | nil => exact ⟨xs,s,h,hlast xs s h,rfl⟩
  | cons y ys ih =>
    obtain ⟨xs',e,hkept,he,hget⟩ := ih (h.step (hnext xs s y ys h))
    exact ⟨xs',e,hkept,he,by rw [List.getLast?_cons_cons,hget]⟩

theorem Intact.sound (h : Intact cs) : Sound (write cs) where
  rank_one := by
    intro s n hn
    obtain ⟨c,xs,ys,later,hkept,rfl⟩ := exists_keptIn hn
    cases xs with
    | nil => simp [Chain.node,h.before c s ys later hkept]
    | cons x xs => simp [Chain.node]
  last_self := by
    intro s n hn
    obtain ⟨c,xs,ys,later,hkept,rfl⟩ := exists_keptIn hn
    cases ys with
    | nil => simp [Chain.node,h.after c xs s later hkept,h.last c xs s later hkept]
    | cons y ys =>
      obtain ⟨_,e,-,he,hget⟩ := hkept.last_kept (fun xs s y ys => h.next c xs s y ys later)
        (fun xs s => h.last c xs s later)
      rw [List.getLast?_cons_cons] at hget
      have hmem : e ∈ y :: ys := List.mem_of_getLast? hget
      have hne : e ≠ s := fun heq => hkept.kept.1 (heq ▸ hmem)
      simp [Chain.node,he,hne]
  next := by
    intro s n t hn ht
    obtain ⟨c,xs,ys,later,hkept,rfl⟩ := exists_keptIn hn
    cases ys with
    | nil => simp [Chain.node,h.after c xs s later hkept] at ht
    | cons y ys =>
      obtain rfl : y = t := by simpa [Chain.node] using ht
      have hstep := hkept.step (h.next c xs s y ys later hkept)
      exact ⟨_,hstep.write_eq,by simp [Chain.node],by simp [Chain.node]⟩
  ends := by
    intro s n t hn ht
    obtain ⟨c,xs,ys,later,hkept,rfl⟩ := exists_keptIn hn
    rcases ht with ht | ht
    · cases ys with
      | nil => simp [Chain.node,h.after c xs s later hkept] at ht
      | cons y ys =>
        obtain rfl : y = t := by simpa [Chain.node] using ht
        have hstep := hkept.step (h.next c xs s y ys later hkept)
        exact ⟨_,hstep.write_eq,rfl,rfl⟩
    · rcases List.eq_nil_or_concat' xs with rfl | ⟨xs,x,rfl⟩
      · simp [Chain.node,h.before c s ys later hkept] at ht
      · obtain rfl : x = t := by simpa [Chain.node] using ht
        -- the element before may be written again, but in the same chain
        have hmem : x ∈ c.elems := by
          rw [hkept.elems]
          simp
        obtain ⟨xs',ys',helems,hys'⟩ := exists_last_of_mem hmem
        have hx : KeptIn cs c xs' x ys' later :=
          ⟨hkept.mem,helems,hys',h.prev c xs x s ys later hkept⟩
        exact ⟨_,hx.write_eq,rfl,rfl⟩

theorem Sound.kept_next (h : Sound (write cs)) {y : σ} (hs : KeptIn cs c xs s (y :: ys) later) :
    Kept y ys later := by
  obtain ⟨n,hn,hprev,hrank⟩ := h.next s _ y hs.write_eq rfl
  obtain ⟨d,xs',ys',later',hy,rfl⟩ := exists_keptIn hn
  obtain ⟨earlier,hcs⟩ := hs.mem
  obtain ⟨earlier',hcs'⟩ := hy.mem
  have hlen : xs'.length = (xs ++ [s]).length := by simpa [Chain.node] using hrank
  rcases split_cases (hcs.symm.trans hcs') with ⟨rfl,rfl⟩ | ⟨hd,-⟩ | ⟨hc,-⟩
  · -- the same chain: the rank tells the place
    have helems : (xs ++ [s]) ++ y :: ys = xs' ++ y :: ys' := by
      rw [← hy.elems,hs.elems]
      simp
    obtain ⟨-,htail⟩ := List.append_inj helems hlen.symm
    obtain ⟨-,rfl⟩ := List.cons.inj htail
    exact hy.kept
  · -- a later chain would have the element itself before the next one
    have hne : xs' ≠ [] := by
      rintro rfl
      simp at hlen
    have hlast : xs'.getLast? = some s := by simpa [Chain.node,hne] using hprev
    have hmem : s ∈ d.elems := by
      rw [hy.elems]
      exact List.mem_append_left _ (List.mem_of_getLast? hlast)
    exact absurd hmem (hs.kept.2 d hd)
  · have hmem : y ∈ c.elems := by
      rw [hs.elems]
      simp
    exact absurd hmem (hy.kept.2 c hc)

theorem Sound.after_eq (h : Sound (write cs)) (hfresh : AfterFresh cs)
    (hs : KeptIn cs c xs s [] later) : c.after = none := by
  cases hafter : c.after with
  | none => rfl
  | some t =>
    obtain ⟨n,hn,hprev,hrank⟩ := h.next s _ t hs.write_eq (by simp [Chain.node,hafter])
    obtain ⟨d,xs',ys',later',ht,rfl⟩ := exists_keptIn hn
    obtain ⟨earlier,hcs⟩ := hs.mem
    obtain ⟨earlier',hcs'⟩ := ht.mem
    obtain ⟨hnot,hnotEarlier⟩ := hfresh earlier c later t hcs hafter
    rcases split_cases (hcs.symm.trans hcs') with ⟨rfl,-⟩ | ⟨hd,-⟩ | ⟨-,hd⟩
    · exact absurd ht.mem_elems hnot
    · have hne : xs' ≠ [] := by
        rintro rfl
        simp [Chain.node] at hrank
      have hlast : xs'.getLast? = some s := by simpa [Chain.node,hne] using hprev
      have hmem : s ∈ d.elems := by
        rw [ht.elems]
        exact List.mem_append_left _ (List.mem_of_getLast? hlast)
      exact absurd hmem (hs.kept.2 d hd)
    · exact absurd ht.mem_elems (hnotEarlier d hd)

theorem Sound.last_eq (h : Sound (write cs)) (hfresh : AfterFresh cs)
    (hs : KeptIn cs c xs s [] later) : c.last = some s :=
  (h.last_self s _ hs.write_eq).mpr (by simp [Chain.node,h.after_eq hfresh hs])

theorem Sound.kept_prev (h : Sound (write cs)) (hfresh : AfterFresh cs) {x : σ}
    (hs : KeptIn cs c (xs ++ [x]) s ys later) : ∀ d ∈ later, x ∉ d.elems := by
  obtain ⟨n,hn,-,hends⟩ := h.ends s _ x hs.write_eq (Or.inr (by simp [Chain.node]))
  obtain ⟨d,xs',ys',later',hx,rfl⟩ := exists_keptIn hn
  obtain ⟨earlier,hcs⟩ := hs.mem
  obtain ⟨earlier',hcs'⟩ := hx.mem
  rcases split_cases (hcs.symm.trans hcs') with ⟨rfl,rfl⟩ | ⟨hd,-⟩ | ⟨hc,-⟩
  · exact hx.kept.2
  · -- both chains are kept up to their ends, which cannot be the same element
    obtain ⟨_,e,hc,hce,-⟩ := hs.last_kept (fun _ _ _ _ => h.kept_next)
      (fun _ _ => h.last_eq hfresh)
    obtain ⟨_,e',he',hde,-⟩ := hx.last_kept (fun _ _ _ _ => h.kept_next)
      (fun _ _ => h.last_eq hfresh)
    have hsame : d.last = c.last := hends
    obtain rfl : e' = e := Option.some.inj (hde.symm.trans (hsame.trans hce))
    exact absurd he'.mem_elems (hc.kept.2 d hd)
  · have hmem : x ∈ c.elems := by
      rw [hs.elems]
      simp
    exact absurd hmem (hx.kept.2 c hc)

theorem sound_iff_intact (hfresh : AfterFresh cs) : Sound (write cs) ↔ Intact cs where
  mp h :=
    { before := fun c s ys later hs => by
        simpa [Chain.node] using (h.rank_one s _ hs.write_eq).mp rfl
      prev := fun _ _ _ _ _ _ hs => h.kept_prev hfresh hs
      next := fun _ _ _ _ _ _ hs => h.kept_next hs
      after := fun _ _ _ _ hs => h.after_eq hfresh hs
      last := fun _ _ _ _ hs => h.last_eq hfresh hs }
  mpr h := h.sound

end Soundness

end Linked
