import TrinityCore.Conditions.ConditionMgr
import TrinityCore.Lib.Acyclic

set_option autoImplicit false

namespace TrinityCore.Conditions

def Refers (store : OrderedMap Nat (List Condition)) (a b : Nat) : Prop :=
  ∃ conditions, store.find? a = some conditions ∧
    ∃ cond ∈ conditions, cond.referenceId ≠ 0 ∧ cond.referenceId = b ∧ store.find? b ≠ none

def Evaluates (store : OrderedMap Nat (List Condition)) (meets : Condition → Bool)
    (conditions : List Condition) (met : Bool) : Prop :=
  ∃ fuel, isObjectMeetToConditions store meets fuel conditions = some met

/-- What a condition stands for: a reference, for the evaluation of its template. -/
def Meant (store : OrderedMap Nat (List Condition)) (meets : Condition → Bool)
    (cond : Condition) : Prop :=
  if cond.referenceId = 0 then meets cond = true
  else ∀ conditions, store.find? cond.referenceId = some conditions →
    Evaluates store meets conditions true

def SomeGroup (holds : Condition → Prop) (conditions : List Condition) : Prop :=
  ∃ cond ∈ conditions, cond.isLoaded = true ∧ ∀ cond' ∈ conditions, cond'.isLoaded = true →
    cond'.elseGroup = cond.elseGroup → holds cond'

def ConditionMgr.Held (mgr : ConditionMgr) (cond : Condition) : Prop :=
  (∃ id conditions, mgr.conditionReferenceStore.find? id = some conditions ∧ cond ∈ conditions) ∨
    (∃ key, cond ∈ mgr.conditionStore key) ∨ cond ∈ mgr.allocatedMemoryStore

/-- Every evaluation of a list ends, as the disjunction of the conjunctions of its groups. -/
def ConditionMgr.Evaluable (mgr : ConditionMgr) : Prop :=
  ∀ (meets : Condition → Bool) (conditions : List Condition), conditions ≠ [] →
    (∀ cond ∈ conditions, mgr.Held cond) →
    ∃ met, Evaluates mgr.conditionReferenceStore meets conditions met ∧
      (met = true ↔ SomeGroup (Meant mgr.conditionReferenceStore meets) conditions)

def groupOf (conditions : List Condition) (group : Nat) : List Condition :=
  conditions.filter fun cond => cond.isLoaded && cond.elseGroup == group

section Groups

variable {store : OrderedMap Nat (List Condition)} {meets : Condition → Bool}
  {recurse recurse' : List Condition → Option Bool} {conditions : List Condition}

theorem find_checkElseGroup {cond : Condition} {met : Bool} (groups : OrderedMap Nat Bool)
    (hmet : conditionMet store meets recurse cond = some met) :
    ∃ groups', checkElseGroup store meets recurse groups cond = some groups' ∧
      ∀ group, groups'.find? group = if cond.isLoaded = true ∧ cond.elseGroup = group
        then some (met && (groups.find? group).getD true) else groups.find? group := by
  unfold checkElseGroup
  by_cases hloaded : cond.isLoaded = true
  · rw [if_pos hloaded]
    cases hfind : groups.find? cond.elseGroup with
    | none =>
      rw [if_neg (by simp),if_pos rfl,hmet]
      refine ⟨_,rfl,fun group => ?_⟩
      by_cases hgroup : cond.elseGroup = group
      · subst hgroup
        cases met <;> simp [hloaded,hfind,OrderedMap.find?_insert]
      · cases met <;> simp [hloaded,hgroup,Ne.symm hgroup,OrderedMap.find?_insert]
    | some passed =>
      cases passed with
      | false =>
        rw [if_pos rfl]
        refine ⟨groups,rfl,fun group => ?_⟩
        by_cases hgroup : cond.elseGroup = group
        · subst hgroup
          simp [hloaded,hfind]
        · simp [hloaded,hgroup]
      | true =>
        rw [if_neg (by simp),if_neg (by simp),hmet]
        refine ⟨_,rfl,fun group => ?_⟩
        by_cases hgroup : cond.elseGroup = group
        · subst hgroup
          cases met <;> simp [hloaded,hfind,OrderedMap.find?_insert]
        · cases met <;> simp [hloaded,hgroup,Ne.symm hgroup,OrderedMap.find?_insert]
  · rw [if_neg hloaded]
    exact ⟨groups,rfl,fun group => by simp [hloaded]⟩

theorem elseGroups_total
    (htotal : ∀ cond ∈ conditions, conditionMet store meets recurse cond ≠ none) :
    ∃ groups, conditions.foldlM (checkElseGroup store meets recurse) OrderedMap.empty =
        some groups ∧
      ∀ group, groups.find? group = if groupOf conditions group = [] then none
        else some ((groupOf conditions group).all fun cond =>
          conditionMet store meets recurse cond == some true) := by
  induction conditions using List.reverseRecOn with
  | nil => exact ⟨OrderedMap.empty,rfl,by simp [groupOf]⟩
  | append_singleton conditions cond ih =>
    obtain ⟨groups,hfold,hgroups⟩ := ih fun cond' hmem => htotal cond' (List.mem_append_left _ hmem)
    obtain ⟨met,hmet⟩ := Option.ne_none_iff_exists'.mp (htotal cond (by simp))
    obtain ⟨groups',hcheck,hgroups'⟩ := find_checkElseGroup groups hmet
    refine ⟨groups',by simp [List.foldlM_append,hfold,hcheck],fun group => ?_⟩
    rw [hgroups',hgroups]
    by_cases hmine : cond.isLoaded = true ∧ cond.elseGroup = group
    · have happend : groupOf (conditions ++ [cond]) group = groupOf conditions group ++ [cond] := by
        simp [groupOf,List.filter_append,hmine]
      have hne : groupOf conditions group ++ [cond] ≠ [] := by simp
      rw [if_pos hmine,happend,if_neg hne,List.all_append]
      by_cases hempty : groupOf conditions group = []
      · cases met <;> simp [hempty,hmet]
      · cases met <;> simp [hempty,hmet]
    · have happend : groupOf (conditions ++ [cond]) group = groupOf conditions group := by
        simpa [groupOf,List.filter_append] using hmine
      rw [if_neg hmine,happend]

theorem elseGroups_any
    (htotal : ∀ cond ∈ conditions, conditionMet store meets recurse cond ≠ none) :
    ∃ groups, conditions.foldlM (checkElseGroup store meets recurse) OrderedMap.empty =
        some groups ∧
      (groups.values.any id = true ↔
        SomeGroup (fun cond => conditionMet store meets recurse cond = some true) conditions) := by
  obtain ⟨groups,hfold,hgroups⟩ := elseGroups_total htotal
  refine ⟨groups,hfold,?_⟩
  have hany : groups.values.any id = true ↔ ∃ group, groups.find? group = some true := by
    simp [List.any_eq_true,OrderedMap.mem_values]
  rw [hany]
  constructor
  · rintro ⟨group,hfind⟩
    rw [hgroups] at hfind
    split_ifs at hfind with hempty
    obtain ⟨cond,hmem⟩ := List.exists_mem_of_ne_nil _ hempty
    rw [Option.some.injEq,List.all_eq_true] at hfind
    simp only [groupOf,List.mem_filter,Bool.and_eq_true,beq_iff_eq] at hmem hfind
    refine ⟨cond,hmem.1,hmem.2.1,fun cond' hmem' hloaded' hgroup' => ?_⟩
    exact hfind cond' ⟨hmem',hloaded',hgroup'.trans hmem.2.2⟩
  · rintro ⟨cond,hmem,hloaded,hall⟩
    refine ⟨cond.elseGroup,?_⟩
    have hself : cond ∈ groupOf conditions cond.elseGroup := by simp [groupOf,hmem,hloaded]
    rw [hgroups,if_neg (List.ne_nil_of_mem hself),Option.some.injEq,List.all_eq_true]
    intro cond' hmem'
    simp only [groupOf,List.mem_filter,Bool.and_eq_true,beq_iff_eq] at hmem' ⊢
    exact hall cond' hmem'.1 hmem'.2.1 hmem'.2.2

theorem conditionMet_mono {cond : Condition} {met : Bool}
    (hle : ∀ l b, recurse l = some b → recurse' l = some b)
    (h : conditionMet store meets recurse cond = some met) :
    conditionMet store meets recurse' cond = some met := by
  unfold conditionMet at h ⊢
  split_ifs with href
  · rw [if_pos href] at h
    cases hfind : store.find? cond.referenceId with
    | none =>
      rw [hfind] at h
      exact h
    | some l =>
      rw [hfind] at h
      exact hle l met h
  · rw [if_neg href] at h
    exact h

theorem checkElseGroup_mono {cond : Condition} {groups groups' : OrderedMap Nat Bool}
    (hle : ∀ l b, recurse l = some b → recurse' l = some b)
    (h : checkElseGroup store meets recurse groups cond = some groups') :
    checkElseGroup store meets recurse' groups cond = some groups' := by
  unfold checkElseGroup at h ⊢
  by_cases hloaded : cond.isLoaded = true
  · rw [if_pos hloaded] at h ⊢
    by_cases hfailed : groups.find? cond.elseGroup = some false
    · rw [if_pos hfailed] at h ⊢
      exact h
    · rw [if_neg hfailed] at h ⊢
      obtain ⟨met,hmet,heq⟩ := Option.map_eq_some_iff.mp h
      exact Option.map_eq_some_iff.mpr ⟨met,conditionMet_mono hle hmet,heq⟩
  · rw [if_neg hloaded] at h ⊢
    exact h

theorem elseGroups_mono (hle : ∀ l b, recurse l = some b → recurse' l = some b)
    {groups groups' : OrderedMap Nat Bool}
    (h : conditions.foldlM (checkElseGroup store meets recurse) groups = some groups') :
    conditions.foldlM (checkElseGroup store meets recurse') groups = some groups' := by
  induction conditions generalizing groups with
  | nil => exact h
  | cons cond conditions ih =>
    rw [List.foldlM_cons] at h ⊢
    obtain ⟨groups₁,hcheck,hrest⟩ := Option.bind_eq_some_iff.mp h
    exact Option.bind_eq_some_iff.mpr ⟨groups₁,checkElseGroup_mono hle hcheck,ih hrest⟩

end Groups

section Fuel

variable {store : OrderedMap Nat (List Condition)} {meets : Condition → Bool}

theorem list_succ {fuel : Nat} {conditions : List Condition} {met : Bool}
    (h : isObjectMeetToConditionList store meets fuel conditions = some met) :
    isObjectMeetToConditionList store meets (fuel+1) conditions = some met := by
  induction fuel generalizing conditions met with
  | zero => simp [isObjectMeetToConditionList] at h
  | succ fuel ih =>
    unfold isObjectMeetToConditionList at h ⊢
    obtain ⟨groups,hfold,heq⟩ := Option.map_eq_some_iff.mp h
    exact Option.map_eq_some_iff.mpr ⟨groups,elseGroups_mono (fun _ _ => ih) hfold,heq⟩

theorem list_mono {fuel fuel' : Nat} {conditions : List Condition} {met : Bool}
    (hle : fuel ≤ fuel')
    (h : isObjectMeetToConditionList store meets fuel conditions = some met) :
    isObjectMeetToConditionList store meets fuel' conditions = some met := by
  induction hle with
  | refl => exact h
  | step _ ih => exact list_succ ih

theorem list_deterministic {fuel fuel' : Nat} {conditions : List Condition} {met met' : Bool}
    (h : isObjectMeetToConditionList store meets fuel conditions = some met)
    (h' : isObjectMeetToConditionList store meets fuel' conditions = some met') : met = met' := by
  have := (list_mono (Nat.le_max_left fuel fuel') h).symm.trans
    (list_mono (Nat.le_max_right fuel fuel') h')
  exact Option.some.inj this

theorem common_fuel {conditions : List Condition}
    (h : ∀ cond ∈ conditions, cond.referenceId ≠ 0 → ∀ l, store.find? cond.referenceId = some l →
      ∃ fuel met, isObjectMeetToConditionList store meets fuel l = some met) :
    ∃ fuel, ∀ cond ∈ conditions,
      conditionMet store meets (isObjectMeetToConditionList store meets fuel) cond ≠ none := by
  induction conditions with
  | nil => exact ⟨0,by simp⟩
  | cons cond conditions ih =>
    obtain ⟨fuel,hfuel⟩ := ih fun cond' hmem => h cond' (List.mem_cons_of_mem cond hmem)
    obtain ⟨fuel',hfuel'⟩ : ∃ fuel',
        conditionMet store meets (isObjectMeetToConditionList store meets fuel') cond ≠ none := by
      unfold conditionMet
      by_cases href : cond.referenceId ≠ 0
      · cases hfind : store.find? cond.referenceId with
        | none => exact ⟨0,by simp [href]⟩
        | some l =>
          obtain ⟨fuel',met,hmet⟩ := h cond List.mem_cons_self href l hfind
          exact ⟨fuel',by simp [href,hmet]⟩
      · exact ⟨0,by simp [href]⟩
    refine ⟨max fuel fuel',fun cond' hmem => ?_⟩
    rcases List.mem_cons.mp hmem with rfl | hmem
    · obtain ⟨met,hmet⟩ := Option.ne_none_iff_exists'.mp hfuel'
      rw [conditionMet_mono (fun _ _ => list_mono (Nat.le_max_right fuel fuel')) hmet]
      simp
    · obtain ⟨met,hmet⟩ := Option.ne_none_iff_exists'.mp (hfuel cond' hmem)
      rw [conditionMet_mono (fun _ _ => list_mono (Nat.le_max_left fuel fuel')) hmet]
      simp

theorem conditionMet_iff_meant (htemplates : ∀ id l, store.find? id = some l → l ≠ [])
    {fuel : Nat} {cond : Condition}
    (htotal : conditionMet store meets (isObjectMeetToConditionList store meets fuel) cond ≠ none) :
    conditionMet store meets (isObjectMeetToConditionList store meets fuel) cond = some true ↔
      Meant store meets cond := by
  unfold conditionMet Meant at *
  by_cases href : cond.referenceId = 0
  · simp [href]
  · rw [if_pos href] at htotal ⊢
    rw [if_neg href]
    cases hfind : store.find? cond.referenceId with
    | none => simp
    | some l =>
      rw [hfind] at htotal
      dsimp only at htotal ⊢
      obtain ⟨met,hmet⟩ := Option.ne_none_iff_exists'.mp htotal
      have hne := htemplates cond.referenceId l hfind
      constructor
      · intro htrue l' heq
        obtain rfl := Option.some.inj heq
        exact ⟨fuel,by rw [isObjectMeetToConditions,if_neg hne,htrue]⟩
      · intro hall
        obtain ⟨fuel',htrue⟩ := hall l rfl
        rw [isObjectMeetToConditions,if_neg hne] at htrue
        rw [hmet,list_deterministic hmet htrue]

theorem list_evaluates (meets : Condition → Bool)
    (htemplates : ∀ id l, store.find? id = some l → l ≠ [])
    {conditions : List Condition}
    (h : ∀ cond ∈ conditions, cond.referenceId ≠ 0 → ∀ l, store.find? cond.referenceId = some l →
      ∃ fuel met, isObjectMeetToConditionList store meets fuel l = some met) :
    ∃ fuel met, isObjectMeetToConditionList store meets fuel conditions = some met ∧
      (met = true ↔ SomeGroup (Meant store meets) conditions) := by
  obtain ⟨fuel,htotal⟩ := common_fuel h
  obtain ⟨groups,hfold,hany⟩ := elseGroups_any htotal
  refine ⟨fuel+1,_,by rw [isObjectMeetToConditionList,hfold]; rfl,hany.trans ?_⟩
  unfold SomeGroup
  refine exists_congr fun cond => and_congr_right fun _ => and_congr_right fun _ => ?_
  refine forall_congr' fun cond' => forall_congr' fun hmem => ?_
  exact imp_congr Iff.rfl (imp_congr Iff.rfl
    (conditionMet_iff_meant htemplates (htotal cond' hmem)))

theorem templates_evaluate (htemplates : ∀ id l, store.find? id = some l → l ≠ [])
    (hacyclic : ∀ id, ¬ Relation.TransGen (Refers store) id id) (id : Nat) :
    ∀ l, store.find? id = some l →
      ∃ fuel met, isObjectMeetToConditionList store meets fuel l = some met := by
  have hfin : {b | ∃ a, Refers store a b}.Finite := by
    refine (store.keys.toFinset.finite_toSet).subset ?_
    rintro b ⟨a,l,hfind,cond,hmem,href,rfl,hsome⟩
    simpa [OrderedMap.mem_keys,Option.ne_none_iff_exists'] using hsome
  induction id using (Acyclic.wellFounded hfin hacyclic).induction with
  | _ id ih =>
    intro l hfind
    obtain ⟨fuel,met,hmet,-⟩ := list_evaluates meets htemplates fun cond hmem href l' hfind' =>
      ih cond.referenceId ⟨l,hfind,cond,hmem,href,rfl,by simp [hfind']⟩ l' hfind'
    exact ⟨fuel,met,hmet⟩

theorem elseGroups_value {recurse : List Condition → Option Bool} {conditions : List Condition}
    {groups : OrderedMap Nat Bool} (hloaded : ∀ cond ∈ conditions, cond.isLoaded = true)
    (hnever : ∀ cond ∈ conditions, conditionMet store meets recurse cond ≠ some false)
    (hfold : conditions.foldlM (checkElseGroup store meets recurse) OrderedMap.empty =
      some groups) : ∀ cond ∈ conditions, conditionMet store meets recurse cond = some true := by
  induction conditions using List.reverseRecOn generalizing groups with
  | nil => simp
  | append_singleton conditions cond ih =>
    rw [List.foldlM_append] at hfold
    obtain ⟨groups₁,hfold₁,hlast⟩ := Option.bind_eq_some_iff.mp hfold
    have htrue := ih (fun cond' hmem => hloaded cond' (List.mem_append_left _ hmem))
      (fun cond' hmem => hnever cond' (List.mem_append_left _ hmem)) hfold₁
    intro cond' hmem
    rcases List.mem_append.mp hmem with hmem | hmem
    · exact htrue cond' hmem
    rw [List.mem_singleton] at hmem
    subst hmem
    have hgroup : groups₁.find? cond'.elseGroup ≠ some false := by
      have htotal : ∀ cond ∈ conditions, conditionMet store meets recurse cond ≠ none :=
        fun cond hmem => by rw [htrue cond hmem]; simp
      obtain ⟨groups₂,hfold₂,hgroups₂⟩ := elseGroups_total htotal
      obtain rfl := Option.some.inj (hfold₁.symm.trans hfold₂)
      rw [hgroups₂]
      split_ifs
      · simp
      · rw [Ne,Option.some.injEq,Bool.eq_false_iff,not_not,List.all_eq_true]
        intro cond hmem
        rw [htrue cond (List.mem_of_mem_filter hmem)]
        rfl
    have hcheck : checkElseGroup store meets recurse groups₁ cond' = some groups := by
      simpa using hlast
    unfold checkElseGroup at hcheck
    rw [if_pos (hloaded cond' (by simp)),if_neg hgroup] at hcheck
    obtain ⟨met,hmet,-⟩ := Option.map_eq_some_iff.mp hcheck
    cases met with
    | false => exact absurd hmet (hnever cond' (by simp))
    | true => exact hmet

def TemplatesLoaded (store : OrderedMap Nat (List Condition)) : Prop :=
  ∀ id l, store.find? id = some l → l ≠ [] ∧ ∀ cond ∈ l, cond.isLoaded = true

/-- Where every condition is true, so is every list that is evaluated, and it took every reference
of the list. -/
theorem list_true (htemplates : TemplatesLoaded store) {fuel : Nat} {conditions : List Condition}
    {met : Bool} (hne : conditions ≠ []) (hloaded : ∀ cond ∈ conditions, cond.isLoaded = true)
    (h : isObjectMeetToConditionList store (fun _ => true) (fuel+1) conditions = some met) :
    met = true ∧ ∀ cond ∈ conditions, conditionMet store (fun _ => true)
      (isObjectMeetToConditionList store (fun _ => true) fuel) cond = some true := by
  induction fuel using Nat.strong_induction_on generalizing conditions met with
  | _ fuel ih =>
    have hnever : ∀ cond ∈ conditions, conditionMet store (fun _ => true)
        (isObjectMeetToConditionList store (fun _ => true) fuel) cond ≠ some false := by
      intro cond hmem
      unfold conditionMet
      split_ifs
      · cases hfind : store.find? cond.referenceId with
        | none => simp
        | some l =>
          intro hfalse
          cases fuel with
          | zero => simp [isObjectMeetToConditionList] at hfalse
          | succ fuel =>
            obtain ⟨hne',hloaded'⟩ := htemplates _ l hfind
            exact absurd (ih fuel (Nat.lt_succ_self fuel) hne' hloaded' hfalse).1 (by decide)
      · simp
    rw [isObjectMeetToConditionList] at h
    obtain ⟨groups,hfold,hany⟩ := Option.map_eq_some_iff.mp h
    have htrue := elseGroups_value hloaded hnever hfold
    refine ⟨?_,htrue⟩
    obtain ⟨groups',hfold',hany'⟩ := elseGroups_any fun cond hmem => by
      rw [htrue cond hmem]
      simp
    obtain rfl := Option.some.inj (hfold.symm.trans hfold')
    obtain ⟨cond,hmem⟩ := List.exists_mem_of_ne_nil conditions hne
    rw [← hany]
    exact hany'.mpr ⟨cond,hmem,hloaded cond hmem,fun cond' hmem' _ _ => htrue cond' hmem'⟩

theorem cycle_stuck (htemplates : TemplatesLoaded store) {id : Nat}
    (hcycle : Relation.TransGen (Refers store) id id) (fuel : Nat) :
    ¬ ∃ l met, store.find? id = some l ∧
      isObjectMeetToConditionList store (fun _ => true) fuel l = some met := by
  refine Acyclic.stuck (P := fun fuel id => ∃ l met, store.find? id = some l ∧
    isObjectMeetToConditionList store (fun _ => true) fuel l = some met) ?_ ?_ hcycle fuel
  · rintro id ⟨l,met,-,hmet⟩
    simp [isObjectMeetToConditionList] at hmet
  · rintro fuel a b ⟨l,met,hfind,hmet⟩ ⟨l',hfind',cond,hmem,href,rfl,hsome⟩
    obtain rfl := Option.some.inj (hfind.symm.trans hfind')
    obtain ⟨l',hl'⟩ := Option.ne_none_iff_exists'.mp hsome
    obtain ⟨hne,hloaded⟩ := htemplates a l hfind
    have htrue := (list_true htemplates hne hloaded hmet).2 cond hmem
    unfold conditionMet at htrue
    rw [if_pos href,hl'] at htrue
    exact ⟨l',true,hl',htrue⟩

end Fuel

section Load

variable {data : GameData} {mgr : ConditionMgr}

theorem templatesLoaded_add (h : TemplatesLoaded mgr.conditionReferenceStore) (refId : Nat)
    {cond : Condition} (hloaded : cond.isLoaded = true) :
    TemplatesLoaded (mgr.addToReferences refId cond).conditionReferenceStore := by
  intro id l hfind
  unfold ConditionMgr.addToReferences at hfind
  dsimp only at hfind
  rw [OrderedMap.find?_insert] at hfind
  split_ifs at hfind with hid
  · obtain rfl := Option.some.inj hfind
    refine ⟨by simp,fun cond' hmem => ?_⟩
    rcases List.mem_append.mp hmem with hmem | hmem
    · cases hold : mgr.conditionReferenceStore.find? refId with
      | none => simp [hold] at hmem
      | some l =>
        rw [hold] at hmem
        exact (h refId l hold).2 cond' hmem
    · rw [List.mem_singleton] at hmem
      rw [hmem]
      exact hloaded
  · exact h id l hfind

theorem isLoaded_condition (data : GameData) {row : Row} (address : Nat)
    (hvalid : row.conditionTypeOrReference ≥ 0 →
      data.isConditionTypeValid (row.condition address) = true) :
    (row.condition address).isLoaded = true := by
  unfold Condition.isLoaded
  rw [decide_eq_true_eq]
  by_cases href : row.conditionTypeOrReference < 0
  · right
    unfold Row.condition
    dsimp only
    rw [if_pos href]
    omega
  · left
    have htype := hvalid (not_lt.mp href)
    unfold GameData.isConditionTypeValid at htype
    split_ifs at htype with hrange
    exact Nat.pos_of_ne_zero (not_or.mp hrange).1

theorem references_addToGroup (cond : Condition) :
    (mgr.addToGroup data cond).conditionReferenceStore = mgr.conditionReferenceStore := by
  unfold ConditionMgr.addToGroup
  split_ifs <;> rfl

theorem templatesLoaded_loadRow (h : TemplatesLoaded mgr.conditionReferenceStore) (address : Nat)
    (row : Row) : TemplatesLoaded (mgr.loadRow data address row).conditionReferenceStore := by
  unfold ConditionMgr.loadRow
  dsimp only
  split_ifs with hself htype href
  · exact h
  · exact h
  · refine templatesLoaded_add h _ (isLoaded_condition data address fun hpos => ?_)
    simpa [hpos] using htype
  all_goals first | exact h | (rw [references_addToGroup]; exact h)

theorem templatesLoaded_loadRows (rows : List Row) (address : Nat)
    (h : TemplatesLoaded mgr.conditionReferenceStore) :
    TemplatesLoaded (mgr.loadRows data address rows).conditionReferenceStore := by
  induction rows generalizing mgr address with
  | nil => exact h
  | cons row rows ih => exact ih (address+1) (templatesLoaded_loadRow h address row)

theorem templatesLoaded (data : GameData) (rows : List Row) :
    TemplatesLoaded (loadConditions data rows).conditionReferenceStore :=
  templatesLoaded_loadRows rows 0 fun id l hfind => by simp [ConditionMgr.clean] at hfind

end Load

theorem not_evaluable {data : GameData} {rows : List Row} {id : Nat}
    (hcycle : Relation.TransGen (Refers (loadConditions data rows).conditionReferenceStore) id id) :
    ¬ (loadConditions data rows).Evaluable := by
  intro hall
  have htemplates := templatesLoaded data rows
  obtain ⟨b,⟨l,hfind,-⟩,-⟩ := Relation.TransGen.head'_iff.mp hcycle
  have hne := (htemplates id l hfind).1
  obtain ⟨met,⟨fuel,hmet⟩,-⟩ := hall (fun _ => true) l hne fun cond hmem => .inl ⟨id,l,hfind,hmem⟩
  rw [isObjectMeetToConditions,if_neg hne] at hmet
  exact cycle_stuck htemplates hcycle fuel ⟨l,met,hfind,hmet⟩

/-- Every list that was loaded is evaluated if and only if no reference template leads back to
itself. -/
theorem evaluable_iff_acyclic (data : GameData) (rows : List Row) :
    (loadConditions data rows).Evaluable ↔ ∀ id,
      ¬ Relation.TransGen (Refers (loadConditions data rows).conditionReferenceStore) id id := by
  constructor
  · exact fun hall id hcycle => not_evaluable hcycle hall
  · intro hacyclic meets conditions hne hheld
    have htemplates : ∀ id l,
        (loadConditions data rows).conditionReferenceStore.find? id = some l → l ≠ [] :=
      fun id l hfind => (templatesLoaded data rows id l hfind).1
    obtain ⟨fuel,met,hmet,hgroup⟩ := list_evaluates meets htemplates
      fun cond _ _ l hfind => templates_evaluate htemplates hacyclic cond.referenceId l hfind
    exact ⟨met,⟨fuel,by rw [isObjectMeetToConditions,if_neg hne,hmet]⟩,hgroup⟩

def referenceRow (id ref : Nat) : Row where
  sourceTypeOrReferenceId := -id
  sourceGroup := 0
  sourceEntry := 0
  sourceId := 0
  elseGroup := 0
  conditionTypeOrReference := -ref
  conditionTarget := 0
  conditionValue1 := 0
  conditionValue2 := 0
  conditionValue3 := 0
  negativeCondition := false
  errorType := 0
  errorTextId := 0

def everything : GameData := ⟨fun _ => true,fun _ => true,fun _ => true⟩

theorem mutual_references :
    ¬ (loadConditions everything [referenceRow 1 2,referenceRow 2 1]).Evaluable := by
  have h₁ : Refers (loadConditions everything
      [referenceRow 1 2,referenceRow 2 1]).conditionReferenceStore 1 2 :=
    ⟨_,rfl,_,List.mem_singleton.mpr rfl,by decide,rfl,Option.some_ne_none _⟩
  have h₂ : Refers (loadConditions everything
      [referenceRow 1 2,referenceRow 2 1]).conditionReferenceStore 2 1 :=
    ⟨_,rfl,_,List.mem_singleton.mpr rfl,by decide,rfl,Option.some_ne_none _⟩
  exact not_evaluable (.tail (.single h₁) h₂)

end TrinityCore.Conditions
