import TrinityCore.Lib.Run
import TrinityCore.Players.Inventory

set_option autoImplicit false

namespace TrinityCore.Players

def buybackSlots : List Nat := List.range' buybackSlotStart (buybackSlotEnd-buybackSlotStart)

structure SoldItem where
  guid : Nat
  count : Nat
  /-- The price of one, if there is a template. -/
  sellPrice : Option Nat
  deriving DecidableEq

def SoldItem.price (it : SoldItem) : Nat :=
  match it.sellPrice with
  | some sellPrice => sellPrice*it.count % 2^32
  | none => 0

/-- The items by their slots, and the fields of the player by their numbers. -/
structure BuyBack where
  items : Nat → Option SoldItem
  vendorbuyback : Nat → Nat
  price : Nat → Nat
  timestamp : Nat → Nat
  currentBuybackSlot : Nat

namespace BuyBack

def empty : BuyBack := ⟨fun _ => none,fun _ => 0,fun _ => 0,fun _ => 0,buybackSlotStart⟩

variable (b : BuyBack)

def removeItemFromBuyBackSlot (slot : Nat) : BuyBack :=
  if slot ≥ buybackSlotStart ∧ slot < buybackSlotEnd then
    let items := Function.update b.items slot none
    let eslot := slot-buybackSlotStart
    { items := items
      vendorbuyback := Function.update b.vendorbuyback eslot 0
      price := Function.update b.price eslot 0
      timestamp := Function.update b.timestamp eslot 0
      currentBuybackSlot :=
        if (items b.currentBuybackSlot).isSome then slot else b.currentBuybackSlot }
  else b

def time (slot : Nat) : Nat := b.timestamp (slot-buybackSlotStart)

/-- The search for the oldest. An empty slot ends it, and is not what is found. -/
def oldestSlot : List Nat → Nat → Nat → Nat
  | [], _, oldest => oldest
  | i :: rest, oldestTime, oldest =>
    if b.items i = none then oldest
    else if oldestTime > b.time i then oldestSlot rest (b.time i) i
    else oldestSlot rest oldestTime oldest

def slotToAdd : Nat :=
  if (b.items b.currentBuybackSlot).isSome then
    b.oldestSlot (List.range' (buybackSlotStart+1) (buybackSlotEnd-(buybackSlotStart+1)))
      (b.timestamp 0) buybackSlotStart
  else b.currentBuybackSlot

def addItemToBuyBackSlot (it : SoldItem) (etime : Nat) : BuyBack :=
  let slot := b.slotToAdd
  let b := b.removeItemFromBuyBackSlot slot
  let eslot := slot-buybackSlotStart
  { items := Function.update b.items slot (some it)
    vendorbuyback := Function.update b.vendorbuyback eslot it.guid
    price := Function.update b.price eslot it.price
    timestamp := Function.update b.timestamp eslot (etime % 2^32)
    currentBuybackSlot :=
      if b.currentBuybackSlot < buybackSlotEnd-1 then b.currentBuybackSlot+1
      else b.currentBuybackSlot }

end BuyBack

inductive Trade where
  | sell (it : SoldItem) (etime : Nat)
  | buyBack (slot : Nat)

def BuyBack.step (b : BuyBack) : Trade → BuyBack
  | .sell it etime => b.addItemToBuyBackSlot it etime
  | .buyBack slot => b.removeItemFromBuyBackSlot slot

abbrev BuyBack.run (trades : List Trade) : BuyBack := Run.exec BuyBack.step BuyBack.empty trades

namespace BuyBack

/-- An item goes for a new one only if all the slots are filled, and it is one of the oldest. -/
def DropsNone (b : BuyBack) : Prop :=
  b.items b.slotToAdd ≠ none →
    ∀ slot ∈ buybackSlots, b.items slot ≠ none ∧ b.time b.slotToAdd ≤ b.time slot

/-- The current slot or the first one is free, or no slot is. -/
def Ready (b : BuyBack) : Prop :=
  b.items b.currentBuybackSlot = none ∨ b.items buybackSlotStart = none ∨
    ∀ slot ∈ buybackSlots, b.items slot ≠ none

instance (b : BuyBack) : Decidable b.DropsNone := inferInstanceAs (Decidable (_ → _))

instance (b : BuyBack) : Decidable b.Ready := inferInstanceAs (Decidable (_ ∨ _))

/-- The current slot is one of them, and those that are free have no times. -/
structure Proper (b : BuyBack) : Prop where
  current : b.currentBuybackSlot ∈ buybackSlots
  free : ∀ slot ∈ buybackSlots, b.items slot = none → b.time slot = 0

end BuyBack

section Slots

variable {b : BuyBack}

theorem mem_buybackSlots {slot : Nat} :
    slot ∈ buybackSlots ↔ slot ≥ buybackSlotStart ∧ slot < buybackSlotEnd := by
  unfold buybackSlots
  rw [List.mem_range'_1]
  rfl

theorem buybackSlots_eq : buybackSlots = buybackSlotStart ::
    List.range' (buybackSlotStart+1) (buybackSlotEnd-(buybackSlotStart+1)) := rfl

theorem eslot_inj {slot slot' : Nat} (h : slot ∈ buybackSlots) (h' : slot' ∈ buybackSlots)
    (heq : slot-buybackSlotStart = slot'-buybackSlotStart) : slot = slot' := by
  rw [mem_buybackSlots] at h h'
  omega

/-- The filled slots up to the first free one, and one of the oldest among them. -/
theorem oldestSlot_spec (l : List Nat) (oldest : Nat) :
    let filled := oldest :: l.takeWhile fun i => (b.items i).isSome
    b.oldestSlot l (b.time oldest) oldest ∈ filled ∧
      ∀ i ∈ filled, b.time (b.oldestSlot l (b.time oldest) oldest) ≤ b.time i := by
  induction l generalizing oldest with
  | nil => simp [BuyBack.oldestSlot]
  | cons i rest ih =>
    unfold BuyBack.oldestSlot
    split_ifs with hfree htime
    · simp [hfree]
    · obtain ⟨hmem,hle⟩ := ih i
      have hfilled : (b.items i).isSome = true := Option.isSome_iff_ne_none.mpr hfree
      dsimp only at hmem hle ⊢
      rw [List.takeWhile_cons,hfilled,if_pos rfl]
      refine ⟨List.mem_cons_of_mem _ hmem,fun j hj => ?_⟩
      rcases List.mem_cons.mp hj with rfl | hj
      · exact (hle i List.mem_cons_self).trans htime.le
      · exact hle j hj
    · obtain ⟨hmem,hle⟩ := ih oldest
      have hfilled : (b.items i).isSome = true := Option.isSome_iff_ne_none.mpr hfree
      dsimp only at hmem hle ⊢
      rw [List.takeWhile_cons,hfilled,if_pos rfl]
      constructor
      · rcases List.mem_cons.mp hmem with heq | hmem
        · rw [heq]
          exact List.mem_cons_self
        · exact List.mem_cons_of_mem _ (List.mem_cons_of_mem _ hmem)
      · intro j hj
        simp only [List.mem_cons] at hj hle
        rcases hj with rfl | rfl | hj
        · exact hle j (.inl rfl)
        · exact (hle oldest (.inl rfl)).trans (by omega)
        · exact hle j (.inr hj)

theorem oldestSlot_zero (l : List Nat) (oldest : Nat) : b.oldestSlot l 0 oldest = oldest := by
  induction l with
  | nil => rfl
  | cons i rest ih =>
    unfold BuyBack.oldestSlot
    split_ifs with hfree htime
    · rfl
    · omega
    · exact ih

theorem slotToAdd_mem (h : b.Proper) : b.slotToAdd ∈ buybackSlots := by
  unfold BuyBack.slotToAdd
  split_ifs
  · have hmem := (oldestSlot_spec (b := b) (List.range' (buybackSlotStart+1)
      (buybackSlotEnd-(buybackSlotStart+1))) buybackSlotStart).1
    rw [buybackSlots_eq]
    rcases List.mem_cons.mp hmem with heq | hmem
    · exact List.mem_cons.mpr (.inl heq)
    · exact List.mem_cons_of_mem _ ((List.takeWhile_sublist _).subset hmem)
  · exact h.current

theorem proper_empty : BuyBack.empty.Proper where
  current := by decide
  free := fun _ _ _ => rfl

theorem Proper.remove (h : b.Proper) (slot : Nat) : (b.removeItemFromBuyBackSlot slot).Proper := by
  unfold BuyBack.removeItemFromBuyBackSlot
  split_ifs with hslot
  · refine ⟨?_,fun i hi hfree => ?_⟩
    · dsimp only
      split_ifs
      · exact mem_buybackSlots.mpr hslot
      · exact h.current
    · unfold BuyBack.time
      dsimp only at hfree ⊢
      by_cases heq : i = slot
      · rw [heq,Function.update_self]
      · rw [Function.update_of_ne heq] at hfree
        rw [Function.update_of_ne fun hsame =>
          heq (eslot_inj hi (mem_buybackSlots.mpr hslot) hsame)]
        exact h.free i hi hfree
  · exact h

theorem Proper.add (h : b.Proper) (it : SoldItem) (etime : Nat) :
    (b.addItemToBuyBackSlot it etime).Proper := by
  have hslot := slotToAdd_mem h
  have hremove := Proper.remove h b.slotToAdd
  unfold BuyBack.addItemToBuyBackSlot
  dsimp only
  generalize b.slotToAdd = slot at hslot hremove ⊢
  generalize b.removeItemFromBuyBackSlot slot = b' at hremove ⊢
  refine ⟨?_,fun i hi hfree => ?_⟩
  · have hcurrent := hremove.current
    rw [mem_buybackSlots] at hcurrent ⊢
    split_ifs with hnext
    · exact ⟨hcurrent.1.trans (Nat.le_succ _),Nat.add_lt_of_lt_sub hnext⟩
    · exact hcurrent
  · unfold BuyBack.time
    dsimp only at hfree ⊢
    by_cases heq : i = slot
    · rw [heq,Function.update_self] at hfree
      exact absurd hfree (by simp)
    · rw [Function.update_of_ne heq] at hfree
      rw [Function.update_of_ne fun hsame => heq (eslot_inj hi hslot hsame)]
      exact hremove.free i hi hfree

theorem proper_run (trades : List Trade) : (BuyBack.run trades).Proper := by
  refine Run.exec_inv (fun b trade h => ?_) _ _ proper_empty
  cases trade with
  | sell it etime => exact Proper.add h it etime
  | buyBack slot => exact Proper.remove h slot

theorem dropsNone_iff (h : b.Proper) : b.DropsNone ↔ b.Ready := by
  have hspec := oldestSlot_spec (b := b) (List.range' (buybackSlotStart+1)
    (buybackSlotEnd-(buybackSlotStart+1))) buybackSlotStart
  have hfirst : b.timestamp 0 = b.time buybackSlotStart := rfl
  unfold BuyBack.DropsNone BuyBack.Ready BuyBack.slotToAdd
  rw [hfirst]
  cases hcurrent : b.items b.currentBuybackSlot with
  | none => simp [hcurrent]
  | some it =>
    rw [Option.isSome_some,if_pos rfl]
    simp only [reduceCtorEq,false_or]
    constructor
    · intro hdrops
      refine or_iff_not_imp_left.mpr fun hstart => ?_
      refine fun slot hslot => (hdrops ?_ slot hslot).1
      rcases List.mem_cons.mp hspec.1 with heq | hmem
      · rw [heq]
        exact hstart
      · have hfilled := List.mem_takeWhile_imp hmem
        exact Option.isSome_iff_ne_none.mp hfilled
    · rintro (hstart | hall) hfilled
      · rw [h.free _ (by decide) hstart,oldestSlot_zero] at hfilled
        exact absurd hstart hfilled
      · refine fun slot hslot => ⟨hall slot hslot,hspec.2 slot ?_⟩
        have htake : (List.range' (buybackSlotStart+1)
            (buybackSlotEnd-(buybackSlotStart+1))).takeWhile (fun i => (b.items i).isSome) =
              List.range' (buybackSlotStart+1) (buybackSlotEnd-(buybackSlotStart+1)) := by
          rw [List.takeWhile_eq_self_iff]
          intro i hi
          rw [Option.isSome_iff_ne_none]
          exact hall i (buybackSlots_eq ▸ List.mem_cons_of_mem _ hi)
        rw [htake,← buybackSlots_eq]
        exact hslot

/-- Items are dropped only when they must be if and only if each sale finds the slots ready. -/
theorem sales_dropNone_iff (trades : List Trade) :
    (∀ pre it etime post, trades = pre ++ .sell it etime :: post → (BuyBack.run pre).DropsNone) ↔
      ∀ pre it etime post, trades = pre ++ .sell it etime :: post → (BuyBack.run pre).Ready :=
  forall_congr' fun pre => forall_congr' fun _ => forall_congr' fun _ => forall_congr' fun _ =>
    forall_congr' fun _ => dropsNone_iff (proper_run pre)

end Slots

section Example

def soldBread (guid : Nat) : SoldItem := ⟨guid,1,some 5⟩

/-- All the slots are filled, two items from the middle are bought back, and one more is sold. -/
def fillAndBuyBack : List Trade :=
  (List.range 12).map (fun i => .sell (soldBread (i+1)) (i+1)) ++
    [.buyBack 77,.buyBack 79,.sell (soldBread 13) 13]

/-- The next sale drops the first item though the slot 79 is free. -/
theorem first_item_dropped : (BuyBack.run fillAndBuyBack).slotToAdd = 74 ∧
    (BuyBack.run fillAndBuyBack).items 74 = some (soldBread 1) ∧
      (BuyBack.run fillAndBuyBack).items 79 = none ∧ ¬ (BuyBack.run fillAndBuyBack).DropsNone := by
  decide +kernel

end Example

end TrinityCore.Players
