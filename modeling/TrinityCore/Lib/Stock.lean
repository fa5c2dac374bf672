import Mathlib

set_option autoImplicit false

/-!
Things with serial numbers that are kept in places, moved, split and merged. There stays as much of
every kind as there was, no serial number occurs twice, and new ones are taken from a counter.
-/

namespace Stock

variable {ι α κ : Type}

section Held

def held (places : List ι) (c : ι → Option α) : Multiset α := (places.filterMap c : List α)

def inPlace (o : Option α) : Multiset α := (o.toList : List α)

@[simp] theorem inPlace_none : inPlace (none : Option α) = 0 := rfl

@[simp] theorem inPlace_some (a : α) : inPlace (some a) = {a} := rfl

variable {places : List ι} {c c' : ι → Option α} {i : ι}

theorem held_cons (i : ι) (places : List ι) (c : ι → Option α) :
    held (i :: places) c = inPlace (c i)+held places c := by
  unfold held inPlace
  rw [List.filterMap_cons,Multiset.coe_add]
  cases c i <;> rfl

theorem held_congr (h : ∀ j ∈ places, c' j = c j) : held places c' = held places c := by
  unfold held
  rw [List.filterMap_congr h]

theorem mem_held {a : α} : a ∈ held places c ↔ ∃ i ∈ places, c i = some a := by
  unfold held
  rw [Multiset.mem_coe,List.mem_filterMap]

theorem held_inj {serial : α → Nat} (h : ((held places c).map serial).Nodup) {j : ι} {a b : α}
    (hi : i ∈ places) (hj : j ∈ places) (ha : c i = some a) (hb : c j = some b)
    (hab : serial a = serial b) : i = j := by
  induction places with
  | nil => simp at hi
  | cons k places ih =>
    rw [held_cons,Multiset.map_add,Multiset.nodup_add] at h
    obtain ⟨-,hrest,hdisjoint⟩ := h
    have hapart : ∀ {l : ι} {x y : α}, l ∈ places → c k = some x → c l = some y →
        serial x ≠ serial y := by
      intro l x y hl hx hy heq
      have hleft : serial x ∈ (inPlace (c k)).map serial := by
        rw [hx]
        simp
      have hright : serial x ∈ (held places c).map serial := by
        rw [heq]
        exact Multiset.mem_map_of_mem serial (mem_held.mpr ⟨l,hl,hy⟩)
      exact Multiset.disjoint_left.mp hdisjoint hleft hright
    rcases List.mem_cons.mp hi with hik | hi
    · rcases List.mem_cons.mp hj with hjk | hj
      · rw [hik,hjk]
      · exact absurd hab (hapart hj (hik ▸ ha) hb)
    · rcases List.mem_cons.mp hj with hjk | hj
      · exact absurd hab.symm (hapart hi (hjk ▸ hb) ha)
      · exact ih hrest hi hj

theorem held_exchange (hnodup : places.Nodup) (hi : i ∈ places) (hc : ∀ j, j ≠ i → c' j = c j) :
    held places c'+inPlace (c i) = held places c+inPlace (c' i) := by
  induction places with
  | nil => simp at hi
  | cons j places ih =>
    obtain ⟨hj,hnodup⟩ := List.nodup_cons.mp hnodup
    rw [held_cons,held_cons]
    rcases List.mem_cons.mp hi with rfl | hi
    · have hrest : held places c' = held places c := by
        apply held_congr
        intro j hmem
        exact hc j (fun heq => hj (heq ▸ hmem))
      rw [hrest]
      abel
    · have hne : j ≠ i := fun heq => hj (heq ▸ hi)
      rw [hc j hne,add_assoc,ih hnodup hi,add_assoc]

end Held

variable {serial : α → Nat} {good : α → Prop} {weight : κ → α → Nat}

def amount (weight : κ → α → Nat) (k : κ) (m : Multiset α) : Nat := (m.map (weight k)).sum

@[simp] theorem amount_zero (k : κ) : amount weight k 0 = 0 := rfl

@[simp] theorem amount_singleton (k : κ) (a : α) : amount weight k {a} = weight k a := by
  simp [amount]

@[simp] theorem amount_add (k : κ) (m m' : Multiset α) :
    amount weight k (m+m') = amount weight k m+amount weight k m' := by
  simp [amount]

/-- The things are good ones, no serial number occurs twice, and all are below the counter. -/
structure Registered (serial : α → Nat) (good : α → Prop) (next : Nat) (m : Multiset α) :
    Prop where
  nodup : (m.map serial).Nodup
  below : ∀ a ∈ m, serial a < next
  good : ∀ a ∈ m, good a

/-- Of every kind there is as much as before, and new serial numbers come from the counter. -/
structure Reshaped (serial : α → Nat) (good : α → Prop) (weight : κ → α → Nat)
    (next next' : Nat) (m m' : Multiset α) : Prop where
  amount : ∀ k, amount weight k m' = amount weight k m
  next_le : next ≤ next'
  good : (∀ a ∈ m, good a) → ∀ a ∈ m', good a
  serials : ∃ fresh : Multiset Nat, fresh.Nodup ∧ (∀ n ∈ fresh, next ≤ n ∧ n < next') ∧
    m'.map serial ≤ m.map serial+fresh

variable {next next' next'' : Nat} {m m' m'' r : Multiset α}

theorem Registered.of_le (h : Registered serial good next m) (hle : m' ≤ m) :
    Registered serial good next m' where
  nodup := Multiset.nodup_of_le (Multiset.map_le_map hle) h.nodup
  below := fun a ha => h.below a (Multiset.mem_of_le hle ha)
  good := fun a ha => h.good a (Multiset.mem_of_le hle ha)

theorem Reshaped.refl (serial : α → Nat) (good : α → Prop) (weight : κ → α → Nat) (next : Nat)
    (m : Multiset α) : Reshaped serial good weight next next m m :=
  ⟨fun _ => rfl,le_rfl,id,0,Multiset.nodup_zero,by simp,by simp⟩

theorem Reshaped.trans (h : Reshaped serial good weight next next' m m')
    (h' : Reshaped serial good weight next' next'' m' m'') :
    Reshaped serial good weight next next'' m m'' where
  amount := fun k => (h'.amount k).trans (h.amount k)
  next_le := h.next_le.trans h'.next_le
  good := h'.good ∘ h.good
  serials := by
    obtain ⟨fresh,hnodup,hfresh,hle⟩ := h.serials
    obtain ⟨fresh',hnodup',hfresh',hle'⟩ := h'.serials
    have hnext := h.next_le
    have hnext' := h'.next_le
    refine ⟨fresh+fresh',?_,?_,?_⟩
    · rw [Multiset.nodup_add]
      refine ⟨hnodup,hnodup',?_⟩
      rw [Multiset.disjoint_left]
      intro n hn hn'
      have h₁ := hfresh n hn
      have h₂ := hfresh' n hn'
      omega
    · intro n hn
      rcases Multiset.mem_add.mp hn with hn | hn
      · have := hfresh n hn
        omega
      · have := hfresh' n hn
        omega
    · rw [← add_assoc]
      exact hle'.trans (by gcongr)

theorem Reshaped.add_right (h : Reshaped serial good weight next next' m m') (r : Multiset α) :
    Reshaped serial good weight next next' (m+r) (m'+r) where
  amount := by
    intro k
    rw [amount_add,amount_add,h.amount k]
  next_le := h.next_le
  good := by
    intro hall a ha
    rcases Multiset.mem_add.mp ha with ha | ha
    · exact h.good (fun b hb => hall b (Multiset.mem_add.mpr (.inl hb))) a ha
    · exact hall a (Multiset.mem_add.mpr (.inr ha))
  serials := by
    obtain ⟨fresh,hnodup,hfresh,hle⟩ := h.serials
    refine ⟨fresh,hnodup,hfresh,?_⟩
    rw [Multiset.map_add,Multiset.map_add,add_right_comm]
    gcongr

theorem Reshaped.registered (h : Reshaped serial good weight next next' m m')
    (hm : Registered serial good next m) : Registered serial good next' m' := by
  obtain ⟨fresh,hnodup,hfresh,hle⟩ := h.serials
  have hall : (m.map serial+fresh).Nodup := by
    rw [Multiset.nodup_add]
    refine ⟨hm.nodup,hnodup,?_⟩
    rw [Multiset.disjoint_left]
    intro n hn hn'
    obtain ⟨a,ha,rfl⟩ := Multiset.mem_map.mp hn
    have h₁ := hm.below a ha
    have h₂ := hfresh _ hn'
    omega
  refine ⟨Multiset.nodup_of_le hle hall,?_,h.good hm.good⟩
  intro a ha
  rcases Multiset.mem_add.mp (Multiset.mem_of_le hle (Multiset.mem_map_of_mem serial ha)) with hn | hn
  · obtain ⟨b,hb,heq⟩ := Multiset.mem_map.mp hn
    have h₁ := hm.below b hb
    have h₂ := h.next_le
    omega
  · exact (hfresh _ hn).2

end Stock
