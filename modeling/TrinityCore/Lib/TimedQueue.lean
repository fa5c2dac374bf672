import Mathlib

set_option autoImplicit false

namespace TimedQueue

variable {α β : Type} {key : α → Nat} {l pre post : List α} {a : α}

def insert (key : α → Nat) (a : α) (l : List α) : List α :=
  l.orderedInsert (fun a b => key a < key b) a

def insertAll (key : α → Nat) (as l : List α) : List α :=
  as.foldl (fun l a => insert key a l) l

def Sorted (key : α → Nat) (l : List α) : Prop := l.Pairwise fun a b => key a ≤ key b

theorem perm_insert : (insert key a l).Perm (a :: l) := List.perm_orderedInsert _ a l

theorem mem_insert {b : α} : b ∈ insert key a l ↔ b = a ∨ b ∈ l := List.mem_orderedInsert _

theorem sorted_insert (h : Sorted key l) : Sorted key (insert key a l) := by
  unfold insert Sorted at *
  induction l with
  | nil => simp
  | cons b l ih =>
    obtain ⟨hb,hl⟩ := List.pairwise_cons.mp h
    rw [List.orderedInsert_cons]
    split_ifs with hlt
    · refine List.pairwise_cons.mpr ⟨fun c hc => ?_,h⟩
      rcases List.mem_cons.mp hc with rfl | hc
      · exact hlt.le
      · exact hlt.le.trans (hb c hc)
    · refine List.pairwise_cons.mpr ⟨fun c hc => ?_,ih hl⟩
      rcases (List.mem_orderedInsert _).mp hc with rfl | hc
      · exact not_lt.mp hlt
      · exact hb c hc

theorem map_insert (f : α → β) {key' : β → Nat} (hkey : ∀ a, key' (f a) = key a) :
    (insert key a l).map f = insert key' (f a) (l.map f) := by
  unfold insert
  induction l with
  | nil => rfl
  | cons b l ih =>
    rw [List.map_cons,List.orderedInsert_cons,List.orderedInsert_cons,hkey,hkey]
    split_ifs
    · rfl
    · rw [List.map_cons,ih]

theorem insert_split (key : α → Nat) (a : α) (pre post : List α) :
    ∃ pre' post', insert key a (pre ++ post) = pre' ++ post' ∧
      ((pre'.Perm (a :: pre) ∧ post' = post) ∨
        (pre' = pre ∧ post'.Perm (a :: post) ∧ post'.head? = post.head?)) := by
  unfold insert
  induction pre with
  | nil =>
    cases post with
    | nil => exact ⟨[a],[],rfl,.inl ⟨.refl _,rfl⟩⟩
    | cons b post =>
      rw [List.nil_append,List.orderedInsert_cons]
      split_ifs
      · exact ⟨[a],b :: post,rfl,.inl ⟨.refl _,rfl⟩⟩
      · refine ⟨[],_,rfl,.inr ⟨rfl,?_,rfl⟩⟩
        exact ((List.perm_orderedInsert _ a post).cons b).trans (.swap a b post)
  | cons b pre ih =>
    rw [List.cons_append,List.orderedInsert_cons]
    split_ifs
    · exact ⟨a :: b :: pre,post,rfl,.inl ⟨.refl _,rfl⟩⟩
    · obtain ⟨pre',post',heq,hcases⟩ := ih
      refine ⟨b :: pre',post',by rw [heq,List.cons_append],?_⟩
      rcases hcases with ⟨hperm,rfl⟩ | ⟨rfl,hperm,hhead⟩
      · exact .inl ⟨(hperm.cons b).trans (.swap a b pre),rfl⟩
      · exact .inr ⟨rfl,hperm,hhead⟩

theorem perm_insertAll (as : List α) : (insertAll key as l).Perm (as ++ l) := by
  unfold insertAll
  induction as generalizing l with
  | nil => exact .refl _
  | cons a as ih =>
    refine ih.trans ((perm_insert.append_left as).trans ?_)
    exact List.perm_middle

theorem sorted_insertAll (as : List α) (h : Sorted key l) : Sorted key (insertAll key as l) := by
  unfold insertAll
  induction as generalizing l with
  | nil => exact h
  | cons a as ih => exact ih (sorted_insert h)

theorem map_insertAll (f : α → β) {key' : β → Nat} (hkey : ∀ a, key' (f a) = key a)
    (as : List α) : (insertAll key as l).map f = insertAll key' (as.map f) (l.map f) := by
  unfold insertAll
  induction as generalizing l with
  | nil => rfl
  | cons a as ih =>
    rw [List.foldl_cons,ih,List.map_cons,List.foldl_cons,map_insert f hkey]

theorem insert_last (h : ∀ b ∈ l, key b ≤ key a) : insert key a l = l ++ [a] := by
  unfold insert
  induction l with
  | nil => rfl
  | cons b l ih =>
    rw [List.forall_mem_cons] at h
    rw [List.orderedInsert_cons,if_neg (by omega),ih h.2,List.cons_append]

theorem insertAll_sorted (as : List α) (h : Sorted key (l ++ as)) :
    insertAll key as l = l ++ as := by
  unfold insertAll
  induction as generalizing l with
  | nil => rw [List.foldl_nil,List.append_nil]
  | cons a as ih =>
    have hlast : insert key a l = l ++ [a] :=
      insert_last fun b hb => (List.pairwise_append.mp h).2.2 b hb a List.mem_cons_self
    rw [List.foldl_cons,hlast,ih (by rwa [List.append_assoc]),List.append_assoc]
    rfl

end TimedQueue
