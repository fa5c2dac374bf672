import TrinityCore.DungeonFinding.Soundness

set_option autoImplicit false

/-!
The search of `FindNewGroups`. It hands the list of the waiting groups on by reference, and
the inner call uses it up: a group that fits is never given back. So the search is a first
fit. The cache knows a list by the set of its guids, and takes a guid that is in the list
already for one that fits.
-/

namespace TrinityCore.Lfg

variable {e : Env} {d : Stores} {s s' s'' : Search} {q q' : LFGQueue} {check : List Nat}

section Keys

theorem guidString_injective : Function.Injective guidString := by
  intro a b h
  have h' := congrArg (fun cs => Nat.ofDigitChars 10 cs 0) h
  simpa [guidString,Nat.ofDigitChars_ten_toDigits] using h'

theorem bar_notMem (guid : Nat) : '|' ∉ guidString guid := by
  intro h
  have hd := Nat.isDigit_of_mem_toDigits (by decide) (by decide) h
  simp at hd

theorem splitOn_concatenateGuids {t : List Nat} (h : t ≠ []) :
    (concatenateGuids t).splitOn '|' = (OrderedSet.elems t.toFinset).map guidString := by
  refine List.splitOn_intercalate '|' ?_ ?_
  · intro cs hcs
    obtain ⟨guid,-,rfl⟩ := List.mem_map.mp hcs
    exact bar_notMem guid
  · intro hnil
    obtain ⟨g,hg⟩ := List.exists_mem_of_ne_nil t h
    have hmem : g ∈ OrderedSet.elems t.toFinset := by simpa using hg
    rw [List.map_eq_nil_iff.mp hnil] at hmem
    simp at hmem

theorem mem_of_concatenateGuids_eq {t t' : List Nat} {g : Nat}
    (h : concatenateGuids t = concatenateGuids t') (hg : g ∈ t) : g ∈ t' := by
  have ht := splitOn_concatenateGuids (List.ne_nil_of_mem hg)
  have hmem : guidString g ∈ (concatenateGuids t).splitOn '|' := by
    rw [ht]
    exact List.mem_map_of_mem (by simpa using hg)
  rw [h] at hmem
  by_cases hnil : t' = []
  · subst hnil
    have hkey : concatenateGuids [] = [] := rfl
    have hempty : guidString g = [] := by simpa [hkey] using hmem
    exact absurd hempty Nat.toDigits_ne_nil
  · rw [splitOn_concatenateGuids hnil] at hmem
    obtain ⟨g',hg',heq⟩ := List.mem_map.mp hmem
    rw [guidString_injective heq] at hg'
    simpa using hg'

theorem concatenateGuids_congr {t t' : List Nat} (h : ∀ g, g ∈ t ↔ g ∈ t') :
    concatenateGuids t = concatenateGuids t' := by
  unfold concatenateGuids
  rw [show t.toFinset = t'.toFinset from Finset.ext fun g => by simpa using h g]

end Keys

section Compatibility

/-- The answers on which `FindNewGroups` goes on with a list, or is done with it. -/
def LfgCompatibility.fits : LfgCompatibility → Bool
  | .withLessPlayers | .match => true
  | _ => false

def Verdict.answer (queued : Bool) : Verdict → LfgCompatibility
  | .notQueued _ => .pending
  | .incompatible c => c
  | .lessPlayers _ => .withLessPlayers
  | .full _ => if queued then .match else .badStates

/-- What `CheckCompatibility` answers, without what it records. -/
def compat (e : Env) (d : Stores) (q : LFGQueue) : List Nat → LfgCompatibility
  | [] => .wrongGroupSize
  | front :: check =>
    if (front :: check).length > maxGroupSize then .wrongGroupSize
    else if check.length ≥ 2 ∧ (compat e d q check).compatible = false then compat e d q check
    else (verdict e d q (front :: check)).answer (d.allQueued (front :: check))

theorem compat_congr (h : ∀ guid, q'.view guid = q.view guid) (check : List Nat) :
    compat e d q' check = compat e d q check := by
  induction check with
  | nil => rfl
  | cons front check ih => simp only [compat,ih,verdict_congr h]

theorem record_fst (check : List Nat) (s : Search) :
    (record e d check s).1 = (verdict e d s.queue check).answer (d.allQueued check) := by
  unfold record
  cases verdict e d s.queue check with
  | full m => cases hq : d.allQueued check <;> simp [Verdict.answer]
  | _ => rfl

theorem checkCompatibility_fst (check : List Nat) (s : Search) :
    (checkCompatibility e d check s).1 = compat e d s.queue check := by
  induction check generalizing s with
  | nil => rfl
  | cons front check ih =>
    have hkeep := checkCompatibility_keeps (e := e) (d := d) check s
    simp only [checkCompatibility,compat,← ih s]
    split_ifs with h1 h2 h3 h4 h5
    · rfl
    · rfl
    · simp_all
    · simp_all
    · rw [record_fst,verdict_congr hkeep.view]
    · simp_all
    · exact record_fst _ s

theorem compat_ne_badStates (hq : d.allQueued check = true) : compat e d q check ≠ .badStates := by
  cases check with
  | nil => simp [compat]
  | cons front check =>
    simp only [compat]
    split_ifs with h1 h2
    · simp
    · intro hb
      rw [hb] at h2
      simp [LfgCompatibility.compatible] at h2
    · cases hv : verdict e d q (front :: check) with
      | incompatible c =>
        have hc := verdict_incompatible hv
        rintro rfl
        simp [LfgCompatibility.compatible] at hc
      | full m => simp [Verdict.answer,hq]
      | _ => simp [Verdict.answer]

/-- A list in which somebody stands twice does not match and cannot be made to. -/
theorem compat_repeated (hl : 2 ≤ check.length) (hs : Countable q check)
    (h : ¬ ((members q check).map Prod.fst).Nodup) : (compat e d q check).fits = false := by
  match check with
  | front :: check =>
    simp only [compat]
    split_ifs with h1 h2
    · rfl
    · cases hc : compat e d q check <;> simp [hc,LfgCompatibility.compatible] at h2 <;> rfl
    · have hone : check ≠ [] := by
        rintro rfl
        simp at hl
      unfold verdict
      cases hc : countPlayers d q (front :: check) ⟨0,0,fun _ => 0,0⟩ with
      | error g => rfl
      | ok c =>
        have hlen : ¬ ((front :: check).length = 1 ∧ c.numPlayers ≠ maxGroupSize) := by
          simp [hone]
        simp only
        rw [if_neg hlen]
        split_ifs with h3 h4 h5
        · rfl
        · rfl
        · -- everybody was counted, and somebody who is there already is left out
          obtain ⟨-,hcount,-⟩ := countPlayers_all hc (by omega) (by omega) hs
          have hle := size_addPlayers_le (e := e) (members q (front :: check)) .empty
          have h0 : (OrderedMap.empty : LfgRolesMap).size = 0 := rfl
          have hne : ((members q (front :: check)).foldl (addPlayer e) .empty).size ≠
              (members q (front :: check)).length := fun heq =>
            h (addPlayers_of_size (e := e) (show _ = (.empty : LfgRolesMap).size+_ by
              rw [heq,h0,Nat.zero_add])).nodup
          rw [← length_members,Nat.zero_add] at hcount
          rw [h0,Nat.zero_add] at hle
          have hleft : ((c.numPlayers : Int)-(joinRoles e q (front :: check)).size) % 256 ≠ 0 := by
            rw [joinRoles_eq,hcount]
            unfold maxGroupSize at h4
            omega
          simp only [verdictSeveral,hleft,ne_eq,not_false_eq_true,if_true]
          rfl
        · simp only [List.length_cons] at hl h5
          omega

end Compatibility

section Cache

def LFGQueue.cached? (q : LFGQueue) (key : Key) : Option LfgCompatibilityData :=
  q.compatibleMapStore.find? key

/-- Nothing comes into the cache but under the keys of ends of the list. -/
def Caches (check : List Nat) (s s' : Search) : Prop :=
  ∀ key data, s'.queue.cached? key = some data →
    s.queue.cached? key = some data ∨ ∃ t, t <:+ check ∧ key = concatenateGuids t

theorem Caches.trans (h : Caches check s s') (h' : Caches check s' s'') : Caches check s s'' := by
  intro key data hkey
  rcases h' key data hkey with hkey | ht
  · exact h key data hkey
  · exact .inr ht

theorem Caches.cons {front : Nat} (h : Caches check s s') : Caches (front :: check) s s' :=
  fun key data hkey => (h key data hkey).imp_right
    fun ⟨t,ht,heq⟩ => ⟨t,ht.trans (List.suffix_cons front check),heq⟩

theorem caches_of_eq (h : s'.queue.compatibleMapStore = s.queue.compatibleMapStore) :
    Caches check s s' := fun key data hkey => .inl (by rwa [LFGQueue.cached?,← h])

theorem caches_insert {a : LfgCompatibilityData}
    (h : s'.queue.compatibleMapStore =
      s.queue.compatibleMapStore.insert (concatenateGuids check) a) : Caches check s s' := by
  intro key data hkey
  rw [LFGQueue.cached?,h,OrderedMap.find?_insert] at hkey
  split_ifs at hkey with heq
  · exact .inr ⟨check,List.suffix_refl check,heq⟩
  · exact .inl hkey

theorem cached_removeFromQueue {guid : Nat} {key : Key} {data : LfgCompatibilityData}
    (h : (q.removeFromQueue guid).cached? key = some data) : q.cached? key = some data := by
  change (OrderedMap.filter _ _).find? key = some data at h
  rw [OrderedMap.find?_filter,Option.filter_eq_some_iff] at h
  exact h.1

theorem foldl_same {β : Type} (part : LFGQueue → β) {f : LFGQueue → Nat → LFGQueue}
    (hf : ∀ q g, part (f q g) = part q) (gs : List Nat) (q : LFGQueue) :
    part (gs.foldl f q) = part q := by
  induction gs generalizing q with
  | nil => rfl
  | cons g gs ih => exact (ih (f q g)).trans (hf q g)

/-- What a check leaves in the cache: its answer under the key of the list, unless a guid of
the list has no entry. -/
theorem record_store (check : List Nat) (s : Search) :
    (∃ guid ∈ check, s.queue.view guid = none ∧
      (record e d check s).2.queue = s.queue.removeFromQueue guid ∧
      (record e d check s).1 = .pending) ∨
    ∃ a, a.compatibility = (record e d check s).1 ∧
      (record e d check s).2.queue.compatibleMapStore =
        s.queue.compatibleMapStore.insert (concatenateGuids check) a := by
  unfold record
  cases hv : verdict e d s.queue check with
  | notQueued guid => exact .inl ⟨guid,(verdict_missing hv).1,(verdict_missing hv).2,rfl,rfl⟩
  | incompatible c => exact .inr ⟨_,rfl,rfl⟩
  | lessPlayers rs =>
    refine .inr ⟨⟨.withLessPlayers,rs⟩,rfl,?_⟩
    exact congrArg (OrderedMap.insert · _ _) (foldl_same (fun q : LFGQueue => q.compatibleMapStore)
      (f := fun q g => q.updateBestCompatibleInQueue g (concatenateGuids check) rs)
      (fun _ _ => rfl) check s.queue)
  | full m =>
    simp only
    split_ifs
    · exact .inr ⟨_,rfl,rfl⟩
    · have hleave : (createProposal e check m s).queue.compatibleMapStore =
          s.queue.compatibleMapStore :=
        foldl_same (fun q : LFGQueue => q.compatibleMapStore)
          (f := fun q g => (q.removeFromNewQueue g).removeFromCurrentQueue g)
          (fun _ _ => rfl) check s.queue
      refine .inr ⟨{ (s.queue.cached? (concatenateGuids check)).getD ⟨.pending,.empty⟩ with
        compatibility := .match },rfl,?_⟩
      simp only [LFGQueue.setCompatibles,hleave]
      rfl

theorem record_caches (check : List Nat) (s : Search) : Caches check s (record e d check s).2 := by
  rcases record_store (e := e) (d := d) check s with ⟨guid,-,-,hq,-⟩ | ⟨a,-,hstore⟩
  · intro key data hkey
    rw [hq] at hkey
    exact .inl (cached_removeFromQueue hkey)
  · exact caches_insert hstore

theorem checkCompatibility_caches (check : List Nat) (s : Search) :
    Caches check s (checkCompatibility e d check s).2 := by
  induction check generalizing s with
  | nil => exact caches_of_eq rfl
  | cons front check ih =>
    simp only [checkCompatibility]
    split_ifs
    · exact caches_of_eq rfl
    · exact (ih s).cons.trans (caches_insert rfl)
    · exact (ih s).cons.trans (record_caches _ _)
    · exact record_caches _ _

theorem eq_of_suffix {front : Nat} {t : List Nat} (h : t <:+ front :: check)
    (hfront : front ∉ check) (hmem : front ∈ t) : t = front :: check :=
  (List.suffix_cons_iff.mp h).resolve_right fun ht => hfront (ht.subset hmem)

end Cache
section Proposals

def NoneFor (front : Nat) (s s' : Search) : Prop :=
  Keeps s s' ∧ ∀ p ∈ Proposals.newSince s.proposals s'.proposals, front ∉ p.queues

theorem NoneFor.trans {front : Nat} (h : NoneFor front s s') (h' : NoneFor front s' s'') :
    NoneFor front s s'' := by
  refine ⟨h.1.trans h'.1,fun p hp => ?_⟩
  rw [h.1.newSince_trans h'.1] at hp
  exact (List.mem_append.mp hp).elim (h.2 p) (h'.2 p)

theorem Quiet.noneFor (h : Quiet s s') (front : Nat) : NoneFor front s s' := by
  refine ⟨h.keeps,fun p hp => ?_⟩
  rw [h.newSince] at hp
  exact absurd hp List.not_mem_nil

theorem NoneFor.refl (front : Nat) (s : Search) : NoneFor front s s := (Quiet.refl s).noneFor front

theorem checkCompatibility_noneFor {front : Nat} (hfront : front ∉ check) (s : Search) :
    NoneFor front s (checkCompatibility e d check s).2 := by
  refine checkCompatibility_rel (NoneFor front) NoneFor.trans (fun h => h.noneFor front) check s ?_
  intro s t m ht _ _
  refine ⟨matched_keeps t m s,fun p hp => ?_⟩
  rw [matched_newSince,List.mem_singleton] at hp
  subst hp
  exact fun hmem => hfront (ht.subset hmem)

def CreatedFor (check : List Nat) (s s' : Search) : Prop :=
  Keeps s s' ∧ ∃ p ∈ Proposals.newSince s.proposals s'.proposals, p.queues = check

theorem CreatedFor.of_keep (h' : Keeps s s') (h : CreatedFor check s' s'') :
    CreatedFor check s s'' := by
  obtain ⟨hkeep,p,hp,hq⟩ := h
  refine ⟨h'.trans hkeep,p,?_,hq⟩
  rw [h'.newSince_trans hkeep]
  exact List.mem_append_right _ hp

theorem record_outcome (check : List Nat) (s : Search) :
    if (record e d check s).1 = .match then CreatedFor check s (record e d check s).2
    else Quiet s (record e d check s).2 := by
  rcases record_cases (e := e) (d := d) check s with ⟨m,-,-,heq⟩ | ⟨-,hne,hquiet⟩
  · rw [heq,if_pos rfl]
    refine ⟨matched_keeps check m s,{ newProposal e check m s with id := s.proposals.nextId },?_,rfl⟩
    rw [matched_newSince]
    exact List.mem_singleton_self _
  · rwa [if_neg hne]

/-- A check that matches creates a proposal for the list; one that does not creates none with
the first of it. The cache has the answer under the key of the list, if it did not have
another one before. -/
theorem checkCompatibility_outcome {front : Nat} (hfront : front ∉ check) (s : Search) :
    (if (checkCompatibility e d (front :: check) s).1 = .match then
      CreatedFor (front :: check) s (checkCompatibility e d (front :: check) s).2
    else NoneFor front s (checkCompatibility e d (front :: check) s).2) ∧
    ((checkCompatibility e d (front :: check) s).1 = .withLessPlayers →
      ∃ data, (checkCompatibility e d (front :: check) s).2.queue.cached?
        (concatenateGuids (front :: check)) = some data ∧ data.compatibility = .withLessPlayers) ∧
    ∀ data, (checkCompatibility e d (front :: check) s).2.queue.cached?
        (concatenateGuids (front :: check)) = some data →
      s.queue.cached? (concatenateGuids (front :: check)) = some data ∨
      data.compatibility = (checkCompatibility e d (front :: check) s).1 := by
  have hchild := checkCompatibility_noneFor (e := e) (d := d) hfront s
  have hcaches := checkCompatibility_caches (e := e) (d := d) check s
  -- the last part of the check, from a state in which nothing has happened to `front` yet
  have hrecord : ∀ s', NoneFor front s s' → Caches check s s' →
      (if (record e d (front :: check) s').1 = .match then
        CreatedFor (front :: check) s (record e d (front :: check) s').2
      else NoneFor front s (record e d (front :: check) s').2) ∧
      ((record e d (front :: check) s').1 = .withLessPlayers →
        ∃ data, (record e d (front :: check) s').2.queue.cached?
          (concatenateGuids (front :: check)) = some data ∧ data.compatibility = .withLessPlayers) ∧
      ∀ data, (record e d (front :: check) s').2.queue.cached?
          (concatenateGuids (front :: check)) = some data →
        s.queue.cached? (concatenateGuids (front :: check)) = some data ∨
        data.compatibility = (record e d (front :: check) s').1 := by
    intro s' hs' hold
    refine ⟨?_,?_⟩
    · have h := record_outcome (e := e) (d := d) (front :: check) s'
      split_ifs at h ⊢
      · exact h.of_keep hs'.1
      · exact hs'.trans (h.noneFor front)
    · rcases record_store (e := e) (d := d) (front :: check) s' with
        ⟨guid,-,-,hq,hc⟩ | ⟨a,ha,hstore⟩
      · refine ⟨fun h => ?_,fun data hdata => .inl ?_⟩
        · rw [hc] at h
          cases h
        · rw [hq] at hdata
          rcases hold _ _ (cached_removeFromQueue hdata) with h | ⟨t,ht,heq⟩
          · exact h
          · have hmem := mem_of_concatenateGuids_eq heq List.mem_cons_self
            exact absurd (ht.subset hmem) hfront
      · have hown : (record e d (front :: check) s').2.queue.cached?
            (concatenateGuids (front :: check)) = some a := by
          rw [LFGQueue.cached?,hstore,OrderedMap.find?_insert,if_pos rfl]
        refine ⟨fun h => ⟨a,hown,ha.trans h⟩,fun data hdata => .inr ?_⟩
        rw [hown] at hdata
        rw [← Option.some.inj hdata,ha]
  have hrefl : Caches check s s := caches_of_eq rfl
  by_cases h1 : (front :: check).length > maxGroupSize
  · simp only [checkCompatibility,if_pos h1]
    refine ⟨?_,fun h => ?_,fun data hdata => .inl hdata⟩
    · rw [if_neg (by simp)]
      exact .refl front s
    · cases h
  · by_cases h2 : check.length ≥ 2
    · by_cases h3 : (checkCompatibility e d check s).1.compatible = true
      · simp only [checkCompatibility,if_neg h1,if_pos h2,h3,Bool.not_true,Bool.false_eq_true,if_false]
        exact hrecord _ hchild hcaches
      · simp only [checkCompatibility,if_neg h1,if_pos h2,h3,Bool.not_false,if_true]
        refine ⟨?_,fun h => ?_,fun data hdata => .inr ?_⟩
        · have hne : (checkCompatibility e d check s).1 ≠ .match := by
            intro hm
            simp [hm,LfgCompatibility.compatible] at h3
          rw [if_neg hne]
          refine hchild.trans (Quiet.noneFor ?_ front)
          exact quiet_of_cache rfl (fun _ => rfl) rfl rfl
        · rw [h] at h3
          simp [LfgCompatibility.compatible] at h3
        · simp only [LFGQueue.cached?,LFGQueue.setCompatibles,OrderedMap.find?_insert,if_true,
            Option.some.injEq] at hdata
          rw [← hdata]
    · simp only [checkCompatibility,if_neg h1,if_neg h2]
      exact hrecord s (.refl front s) hrefl

/-- With entries for everybody nothing leaves the cache. -/
theorem checkCompatibility_holds (check : List Nat) (s : Search)
    (hdata : ∀ g ∈ check, (s.queue.view g).isSome) {key : Key} {data : LfgCompatibilityData}
    (hkey : s.queue.cached? key = some data) (hother : ∀ t, t <:+ check → key ≠ concatenateGuids t) :
    (checkCompatibility e d check s).2.queue.cached? key = some data := by
  have hinsert : ∀ {s s' : Search} {check : List Nat} {a : LfgCompatibilityData},
      s.queue.cached? key = some data → key ≠ concatenateGuids check →
      s'.queue.compatibleMapStore =
        s.queue.compatibleMapStore.insert (concatenateGuids check) a →
      s'.queue.cached? key = some data := by
    intro s s' check a hs hne heq
    rwa [LFGQueue.cached?,heq,OrderedMap.find?_insert,if_neg hne]
  induction check generalizing s with
  | nil => exact hkey
  | cons front check ih =>
    have hrecord : ∀ s', (∀ guid, s'.queue.view guid = s.queue.view guid) →
        s'.queue.cached? key = some data →
        (record e d (front :: check) s').2.queue.cached? key = some data := by
      intro s' hview hs'
      rcases record_store (e := e) (d := d) (front :: check) s' with
        ⟨guid,hg,hnone,-⟩ | ⟨a,-,hstore⟩
      · rw [hview] at hnone
        simpa [hnone] using hdata guid hg
      · exact hinsert hs' (hother _ (List.suffix_refl _)) hstore
    have hchild := ih s (fun g hg => hdata g (List.mem_cons_of_mem _ hg)) hkey
      fun t ht => hother t (ht.trans (List.suffix_cons front check))
    simp only [checkCompatibility]
    split_ifs
    · exact hkey
    · exact hinsert hchild (hother _ (List.suffix_refl _)) rfl
    · exact hrecord _ (checkCompatibility_keeps check s).view hchild
    · exact hrecord s (fun _ => rfl) hkey

end Proposals

section FirstFit

variable (e : Env) (d : Stores) (q : LFGQueue)

/-- Every group that fits those taken before it is taken, in the order of the queue, until
they make a full group. With a guid that is taken already there is nothing more to find. -/
def firstFit (check : List Nat) : List Nat → Option (List Nat)
  | [] => none
  | g :: all =>
    if g ∈ check then none
    else match compat e d q (check ++ [g]) with
      | .match => some (check ++ [g])
      | .withLessPlayers => firstFit (check ++ [g]) all
      | _ => firstFit check all

def firstFitFrom (front : Nat) (all : List Nat) : Option (List Nat) :=
  match compat e d q [front] with
  | .match => some [front]
  | .withLessPlayers => firstFit e d q [front] all
  | _ => none

variable {e d q}

theorem firstFit_extends {check all t : List Nat} (h : firstFit e d q check all = some t) :
    check <+: t := by
  induction all generalizing check with
  | nil => simp [firstFit] at h
  | cons g all ih =>
    simp only [firstFit] at h
    split_ifs at h
    split at h
    · cases h
      exact List.prefix_append _ _
    · exact (List.prefix_append _ _).trans (ih h)
    · exact ih h

theorem mem_of_firstFitFrom {front : Nat} {all t : List Nat}
    (h : firstFitFrom e d q front all = some t) : front ∈ t := by
  simp only [firstFitFrom] at h
  split at h
  · cases h
    simp
  · exact (firstFit_extends h).subset (by simp)
  · cases h

theorem allQueued_of (h : ∀ g ∈ check, d.getState g = .queued) (hne : check ≠ []) :
    d.allQueued check = true := by
  simp only [Stores.allQueued,Bool.and_eq_true,List.all_eq_true,beq_iff_eq]
  exact ⟨by simpa using hne,h⟩

/-- The cache knows a list that goes beyond the guids taken so far only when it goes beyond
them by one guid that does not fit. -/
structure Live (e : Env) (d : Stores) (q : LFGQueue) (front : Nat) (kept : List Nat) (s : Search) :
    Prop where
  single : front ∉ kept
  view : ∀ guid, s.queue.view guid = q.view guid
  cache : ∀ t, front :: kept ⊆ t → ∀ x ∈ t, x ∉ front :: kept →
    ∀ data, s.queue.cached? (concatenateGuids t) = some data →
      t ⊆ front :: (kept ++ [x]) ∧ data.compatibility = compat e d q (front :: (kept ++ [x])) ∧
      data.compatibility.fits = false ∧ data.compatibility ≠ .badStates

/-- What the search for `front` knows after it has consulted the cache about a list. -/
structure Consulted (e : Env) (d : Stores) (q : LFGQueue) (front : Nat) (kept : List Nat) (g : Nat)
    (s : Search) (c : LfgCompatibility) (s' : Search) : Prop where
  answer : c = compat e d q (front :: (kept ++ [g]))
  found : c = .match → CreatedFor (front :: (kept ++ [g])) s s'
  none : c ≠ .match → NoneFor front s s'
  taken : c = .withLessPlayers → Live e d q front (kept ++ [g]) s' ∧
    ∃ data, s'.queue.cached? (concatenateGuids (front :: (kept ++ [g]))) = some data ∧
      data.compatibility = .withLessPlayers
  passed : c.fits = false → Live e d q front kept s'
  holds : c.fits = false → (∀ x ∈ front :: (kept ++ [g]), (q.view x).isSome) →
    ∀ data, s.queue.cached? (concatenateGuids (front :: kept)) = some data →
      s'.queue.cached? (concatenateGuids (front :: kept)) = some data

theorem consult_of_none (h : s.queue.cached? (concatenateGuids check) = none)
    (hq : d.allQueued check = true) : consult e d check s = checkCompatibility e d check s := by
  have hc := compat_ne_badStates (e := e) (q := s.queue) hq
  rw [← checkCompatibility_fst check s] at hc
  change s.queue.compatibleMapStore.find? _ = none at h
  simp [consult,LFGQueue.getCompatibles,h,hc]

theorem consult_of_some {data : LfgCompatibilityData}
    (h : s.queue.cached? (concatenateGuids check) = some data) (hq : d.allQueued check = true)
    (hbad : data.compatibility ≠ .badStates) : consult e d check s =
      if data.compatibility = .pending then checkCompatibility e d check s
      else (data.compatibility,s) := by
  have hc := compat_ne_badStates (e := e) (q := s.queue) hq
  rw [← checkCompatibility_fst check s] at hc
  change s.queue.compatibleMapStore.find? _ = some data at h
  by_cases hp : data.compatibility = .pending
  · simp [consult,LFGQueue.getCompatibles,h,hp,hc]
  · simp [consult,LFGQueue.getCompatibles,h,hp,hbad]

theorem checkCompatibility_spec {front g : Nat} {kept : List Nat} (h : Live e d q front kept s)
    (hg : g ∉ front :: kept) (hq : ∀ x ∈ front :: (kept ++ [g]), d.getState x = .queued) :
    Consulted e d q front kept g s (checkCompatibility e d (front :: (kept ++ [g])) s).1
      (checkCompatibility e d (front :: (kept ++ [g])) s).2 := by
  have hfront : front ∉ kept ++ [g] := by
    simp only [List.mem_append,List.mem_singleton,not_or]
    exact ⟨h.single,fun heq => hg (heq ▸ List.mem_cons_self)⟩
  have hsub : front :: kept ⊆ front :: (kept ++ [g]) :=
    List.cons_subset_cons front (List.subset_append_left kept [g])
  have hmem : g ∈ front :: (kept ++ [g]) := by simp
  have hcompat : (checkCompatibility e d (front :: (kept ++ [g])) s).1 =
      compat e d q (front :: (kept ++ [g])) := by
    rw [checkCompatibility_fst,compat_congr h.view]
  obtain ⟨hout,hless,hown⟩ := checkCompatibility_outcome (e := e) (d := d) hfront s
  have hcaches := checkCompatibility_caches (e := e) (d := d) (front :: (kept ++ [g])) s
  have hview : ∀ guid, (checkCompatibility e d (front :: (kept ++ [g])) s).2.queue.view guid =
      q.view guid := fun guid => ((checkCompatibility_keeps _ s).view guid).trans (h.view guid)
  -- a list with `front` that is new in the cache has the guids of the list that was checked
  have hnew : ∀ t, front ∈ t → ∀ t', t' <:+ front :: (kept ++ [g]) →
      concatenateGuids t = concatenateGuids t' →
      t' = front :: (kept ++ [g]) ∧ t ⊆ front :: (kept ++ [g]) := by
    intro t ht t' ht' heq
    have hall := eq_of_suffix ht' hfront (mem_of_concatenateGuids_eq heq ht)
    exact ⟨hall,fun x hx => hall ▸ mem_of_concatenateGuids_eq heq hx⟩
  constructor
  case answer => exact hcompat
  case found =>
    intro hc
    rwa [if_pos hc] at hout
  case none =>
    intro hc
    rwa [if_neg hc] at hout
  case taken =>
    intro hc
    refine ⟨⟨hfront,hview,fun t ht x hx hnot data hdata => ?_⟩,hless hc⟩
    rcases hcaches _ _ hdata with hold | ⟨t',ht',heq⟩
    · obtain ⟨hle,-⟩ := h.cache t (fun y hy => ht (hsub hy)) g (ht hmem) hg data hold
      exact absurd (hle hx) hnot
    · exact absurd ((hnew t (ht List.mem_cons_self) t' ht' heq).2 hx) hnot
  case passed =>
    intro hc
    refine ⟨h.single,hview,fun t ht x hx hnot data hdata => ?_⟩
    rcases hcaches _ _ hdata with hold | ⟨t',ht',heq⟩
    · exact h.cache t ht x hx hnot data hold
    · obtain ⟨hall,hle⟩ := hnew t (ht List.mem_cons_self) t' ht' heq
      obtain rfl : x = g := by
        have hx' := hle hx
        simp only [List.mem_cons,List.mem_append] at hx' hnot
        tauto
      subst hall
      rw [heq] at hdata
      rcases hown data hdata with hold | hanswer
      · exact ⟨hle,(h.cache _ hsub x hmem hg data hold).2⟩
      · rw [hanswer]
        refine ⟨hle,hcompat,hc,?_⟩
        rw [hcompat]
        exact compat_ne_badStates (allQueued_of (d := d) hq (List.cons_ne_nil _ _))
  case holds =>
    intro hc hdata data hkey
    refine checkCompatibility_holds _ s (fun x hx => ?_) hkey fun t' ht' heq => ?_
    · rw [h.view]
      exact hdata x hx
    · have hall := eq_of_suffix ht' hfront (mem_of_concatenateGuids_eq heq List.mem_cons_self)
      subst hall
      exact hg (mem_of_concatenateGuids_eq heq.symm hmem)

theorem consult_spec {front g : Nat} {kept : List Nat} (h : Live e d q front kept s)
    (hg : g ∉ front :: kept) (hq : ∀ x ∈ front :: (kept ++ [g]), d.getState x = .queued) :
    Consulted e d q front kept g s (consult e d (front :: (kept ++ [g])) s).1
      (consult e d (front :: (kept ++ [g])) s).2 := by
  have hqueued := allQueued_of (d := d) hq (List.cons_ne_nil _ _)
  have hsub : front :: kept ⊆ front :: (kept ++ [g]) :=
    List.cons_subset_cons front (List.subset_append_left kept [g])
  have hchecked := checkCompatibility_spec h hg hq
  cases hkey : s.queue.cached? (concatenateGuids (front :: (kept ++ [g]))) with
  | none =>
    rw [consult_of_none hkey hqueued]
    exact hchecked
  | some data =>
    obtain ⟨-,hval,hfits,hbad⟩ := h.cache _ hsub g (by simp) hg data hkey
    rw [consult_of_some hkey hqueued hbad]
    split_ifs
    · exact hchecked
    · refine ⟨hval,fun hc => ?_,fun _ => .refl front s,fun hc => ?_,fun _ => h,fun _ _ _ hold => hold⟩
      all_goals
        dsimp only at hc
        rw [hc] at hfits
        cases hfits

section Lists

variable {front g : Nat} {kept all : List Nat}

theorem inner_subset : front :: (kept ++ [g]) ++ all ⊆ front :: kept ++ g :: all := by simp

theorem taken_subset : front :: (kept ++ [g]) ⊆ front :: kept ++ g :: all :=
  List.Subset.trans (List.subset_append_left _ all) inner_subset

theorem passed_subset : front :: kept ++ all ⊆ front :: kept ++ g :: all :=
  ((List.Sublist.refl (front :: kept)).append (List.sublist_cons_self g all)).subset

end Lists

theorem matchQueued_nil (n : Nat) (check : List Nat) (s : Search) :
    matchQueued e d n check [] s = (.withLessPlayers,[],s) := by
  cases n <;> rfl

/-- What first fit finds the search finds. -/
theorem matchQueued_found {front : Nat} {t : List Nat} (n : Nat) (kept all : List Nat) (s : Search)
    (hn : all.length ≤ n) (h : Live e d q front kept s)
    (hq : ∀ g ∈ front :: kept ++ all, d.getState g = .queued)
    (hfit : firstFit e d q (front :: kept) all = some t) :
    (matchQueued e d n (front :: kept) all s).1 = .match ∧
    CreatedFor t s (matchQueued e d n (front :: kept) all s).2.2 := by
  induction n generalizing kept all s with
  | zero =>
    obtain rfl : all = [] := by simpa using hn
    simp [firstFit] at hfit
  | succ n ih =>
    cases all with
    | nil => simp [firstFit] at hfit
    | cons g all =>
      simp only [firstFit] at hfit
      split_ifs at hfit with hg
      have hspec := consult_spec h hg fun x hx => hq x (taken_subset hx)
      have hlen : all.length ≤ n := by simpa using hn
      rw [List.cons_append,← hspec.answer] at hfit
      simp only [matchQueued,List.cons_append]
      generalize consult e d (front :: (kept ++ [g])) s = r at hspec hfit ⊢
      obtain ⟨c,s'⟩ := r
      -- the group completes the list, or is taken along, or is passed over
      cases c with
      | «match» =>
        obtain rfl := Option.some.inj hfit
        exact ⟨rfl,hspec.found rfl⟩
      | withLessPlayers =>
        obtain ⟨h1,h2⟩ := ih (kept ++ [g]) all s' hlen (hspec.taken rfl).1
          (fun x hx => hq x (inner_subset hx)) hfit
        simp only [h1,if_true]
        exact ⟨trivial,h2.of_keep (hspec.none (by simp)).1⟩
      | _ =>
        obtain ⟨h1,h2⟩ := ih kept all s' hlen (hspec.passed rfl)
          (fun x hx => hq x (passed_subset hx)) hfit
        simp only [reduceCtorEq,if_false]
        exact ⟨h1,h2.of_keep (hspec.none (by simp)).1⟩

/-- A list that has somebody twice: the cache does not have it, nor one that goes beyond it, for
a match. -/
structure Dead (d : Stores) (q : LFGQueue) (front : Nat) (kept : List Nat) (s : Search) : Prop where
  single : front ∉ kept
  repeated : ¬ ((members q (front :: kept)).map Prod.fst).Nodup
  view : ∀ guid, s.queue.view guid = q.view guid
  cache : ∀ t, front :: kept ⊆ t → ∀ data, s.queue.cached? (concatenateGuids t) = some data →
    data.compatibility ≠ .match ∧ data.compatibility ≠ .badStates ∧
    ∀ x ∈ t, x ∉ front :: kept → data.compatibility.fits = false

theorem repeated_append {check : List Nat} (h : ¬ ((members q check).map Prod.fst).Nodup)
    (more : List Nat) : ¬ ((members q (check ++ more)).map Prod.fst).Nodup := by
  simp only [members,List.flatMap_append,List.map_append] at h ⊢
  exact fun hnodup => h (List.nodup_append.mp hnodup).1

theorem consult_dead {front g : Nat} {kept : List Nat} (h : Dead d q front kept s)
    (hne : g ≠ front) (hq : ∀ x ∈ front :: (kept ++ [g]), d.getState x = .queued)
    (hs : Countable q (front :: (kept ++ [g]))) :
    (consult e d (front :: (kept ++ [g])) s).1 ≠ .match ∧
    NoneFor front s (consult e d (front :: (kept ++ [g])) s).2 ∧
    Dead d q front kept (consult e d (front :: (kept ++ [g])) s).2 ∧
    ((consult e d (front :: (kept ++ [g])) s).1 = .withLessPlayers →
      Dead d q front (kept ++ [g]) (consult e d (front :: (kept ++ [g])) s).2) := by
  have hfront : front ∉ kept ++ [g] := by
    simp only [List.mem_append,List.mem_singleton,not_or]
    exact ⟨h.single,hne.symm⟩
  have hqueued := allQueued_of (d := d) hq (List.cons_ne_nil _ _)
  have hsub : front :: kept ⊆ front :: (kept ++ [g]) :=
    List.cons_subset_cons front (List.subset_append_left kept [g])
  have hrep : ¬ ((members q (front :: (kept ++ [g]))).map Prod.fst).Nodup := by
    rw [← List.cons_append]
    exact repeated_append h.repeated [g]
  have hcompat : (checkCompatibility e d (front :: (kept ++ [g])) s).1 =
      compat e d q (front :: (kept ++ [g])) := by
    rw [checkCompatibility_fst,compat_congr h.view]
  have hfits := compat_repeated (e := e) (d := d) (by simp) hs hrep
  have hbad := compat_ne_badStates (e := e) (q := q) hqueued
  rw [← hcompat] at hfits hbad
  have hnot : (checkCompatibility e d (front :: (kept ++ [g])) s).1 ≠ .match := by
    intro hm
    rw [hm] at hfits
    cases hfits
  have hchecked : NoneFor front s (checkCompatibility e d (front :: (kept ++ [g])) s).2 ∧
      Dead d q front kept (checkCompatibility e d (front :: (kept ++ [g])) s).2 := by
    obtain ⟨hout,-,hown⟩ := checkCompatibility_outcome (e := e) (d := d) hfront s
    rw [if_neg hnot] at hout
    refine ⟨hout,h.single,h.repeated,fun guid => (hout.1.view guid).trans (h.view guid),?_⟩
    intro t ht data hdata
    rcases checkCompatibility_caches (e := e) (d := d) _ s _ _ hdata with hold | ⟨t',ht',heq⟩
    · exact h.cache t ht data hold
    · have hmem := mem_of_concatenateGuids_eq heq (ht List.mem_cons_self)
      have hall := eq_of_suffix ht' hfront hmem
      subst hall
      rw [heq] at hdata
      rcases hown data hdata with hold | hanswer
      · rw [← heq] at hold
        exact h.cache t ht data hold
      · rw [hanswer]
        exact ⟨hnot,hbad,fun _ _ _ => hfits⟩
  cases hkey : s.queue.cached? (concatenateGuids (front :: (kept ++ [g]))) with
  | none =>
    rw [consult_of_none hkey hqueued]
    refine ⟨hnot,hchecked.1,hchecked.2,fun hless => ?_⟩
    rw [hless] at hfits
    cases hfits
  | some data =>
    obtain ⟨hmatch,hbad',hbeyond⟩ := h.cache _ hsub data hkey
    rw [consult_of_some hkey hqueued hbad']
    split_ifs
    · refine ⟨hnot,hchecked.1,hchecked.2,fun hless => ?_⟩
      rw [hless] at hfits
      cases hfits
    · refine ⟨hmatch,.refl front s,h,fun hless => ?_⟩
      have hg : g ∈ front :: kept := by
        by_contra hg
        have hf := hbeyond g (by simp) hg
        dsimp only at hless
        rw [hless] at hf
        cases hf
      refine ⟨hfront,hrep,h.view,fun t ht data hdata => ?_⟩
      obtain ⟨h1,h2,h3⟩ := h.cache t (fun x hx => ht (hsub hx)) data hdata
      exact ⟨h1,h2,fun x hx hx' => h3 x hx fun hmem => hx' (hsub hmem)⟩

/-- The search from the list on finds nothing, uses the waiting groups up and proposes nothing. -/
def Fruitless (e : Env) (d : Stores) (front n : Nat) (kept all : List Nat) (s : Search) : Prop :=
  (matchQueued e d n (front :: kept) all s).1 ≠ .match ∧
  (matchQueued e d n (front :: kept) all s).2.1 = [] ∧
  NoneFor front s (matchQueued e d n (front :: kept) all s).2.2

theorem Fruitless.nil {front n : Nat} {kept : List Nat} : Fruitless e d front n kept [] s := by
  unfold Fruitless
  rw [matchQueued_nil]
  exact ⟨nofun,rfl,.refl front s⟩

/-- A group is taken along, and the inner search uses the others up, or it is passed over. -/
theorem Fruitless.cons {front g n : Nat} {kept all : List Nat} {c : LfgCompatibility} {s' : Search}
    (heq : consult e d (front :: (kept ++ [g])) s = (c,s')) (hc : c ≠ .match)
    (hs : NoneFor front s s')
    (htaken : c = .withLessPlayers → Fruitless e d front n (kept ++ [g]) all s')
    (hpassed : c.fits = false → Fruitless e d front n kept all s') :
    Fruitless e d front (n+1) kept (g :: all) s := by
  unfold Fruitless at htaken hpassed ⊢
  simp only [matchQueued,List.cons_append,heq]
  cases c with
  | «match» => exact absurd rfl hc
  | withLessPlayers =>
    obtain ⟨h1,h2,h3⟩ := htaken rfl
    simp only [h1,h2,matchQueued_nil,if_false]
    exact ⟨by simp,trivial,hs.trans h3⟩
  | _ =>
    obtain ⟨h1,h2,h3⟩ := hpassed rfl
    simp only [reduceCtorEq,if_false]
    exact ⟨h1,h2,hs.trans h3⟩

theorem matchQueued_dead {front : Nat} (n : Nat) (kept all : List Nat) (s : Search)
    (hn : all.length ≤ n) (h : Dead d q front kept s) (hfront : front ∉ all)
    (hq : ∀ g ∈ front :: kept ++ all, d.getState g = .queued)
    (hs : Countable q (front :: kept ++ all)) : Fruitless e d front n kept all s := by
  induction n generalizing kept all s with
  | zero =>
    obtain rfl : all = [] := by simpa using hn
    exact .nil
  | succ n ih =>
    cases all with
    | nil => exact .nil
    | cons g all =>
      have hlen : all.length ≤ n := by simpa using hn
      obtain ⟨hne,hfront⟩ : g ≠ front ∧ front ∉ all := by simpa [eq_comm] using hfront
      obtain ⟨h1,h2,h3,h4⟩ := consult_dead (e := e) h hne
        (fun x hx => hq x (taken_subset hx)) fun x hx => hs x (taken_subset hx)
      refine .cons rfl h1 h2 (fun hc => ?_) fun _ => ?_
      · exact ih (kept ++ [g]) all _ hlen (h4 hc) hfront
          (fun x hx => hq x (inner_subset hx)) fun x hx => hs x (inner_subset hx)
      · exact ih kept all _ hlen h3 hfront
          (fun x hx => hq x (passed_subset hx)) fun x hx => hs x (passed_subset hx)

/-- Everybody has an entry with players, and not more of them than the counter can take. -/
def Populated (q : LFGQueue) (guids : List Nat) : Prop :=
  ∀ g ∈ guids, 1 ≤ (roles q g).size ∧ (roles q g).size ≤ 250

theorem Populated.isSome {guids : List Nat} (h : Populated q guids) {g : Nat} (hg : g ∈ guids) :
    (q.view g).isSome := by
  have hsize := (h g hg).1
  rw [roles_eq] at hsize
  cases hv : q.view g with
  | some v => rfl
  | none =>
    rw [hv] at hsize
    exact absurd hsize (by decide)

theorem repeated_of_mem {g : Nat} (hg : g ∈ check) (h : 1 ≤ (roles q g).size) :
    ¬ ((members q (check ++ [g])).map Prod.fst).Nodup := by
  intro hnodup
  have hpair := disjoint_of_nodup hnodup
  obtain ⟨p,hp⟩ := List.exists_mem_of_length_pos (show 0 < (roles q g).entries.length from h)
  have hx : p.1 ∈ (roles q g).keys := List.mem_map_of_mem hp
  exact (List.pairwise_append.mp hpair).2.2 g hg g (List.mem_singleton_self g) p.1 hx hx

/-- A guid that is there already: the set of the guids is in the cache, so it is taken along. -/
theorem consult_repeated {front g : Nat} {kept : List Nat} {data : LfgCompatibilityData}
    (h : Live e d q front kept s) (hg : g ∈ front :: kept) (hne : g ≠ front)
    (hq : ∀ x ∈ front :: (kept ++ [g]), d.getState x = .queued) (hsize : 1 ≤ (roles q g).size)
    (hdata : s.queue.cached? (concatenateGuids (front :: kept)) = some data)
    (hless : data.compatibility = .withLessPlayers) :
    consult e d (front :: (kept ++ [g])) s = (.withLessPlayers,s) ∧
      Dead d q front (kept ++ [g]) s := by
  have hsub : front :: kept ⊆ front :: (kept ++ [g]) :=
    List.cons_subset_cons front (List.subset_append_left kept [g])
  have hsame : concatenateGuids (front :: (kept ++ [g])) = concatenateGuids (front :: kept) := by
    refine concatenateGuids_congr fun x => ⟨fun hx => ?_,fun hx => hsub hx⟩
    rw [← List.cons_append] at hx
    exact (List.mem_append.mp hx).elim id fun hx => List.mem_singleton.mp hx ▸ hg
  refine ⟨?_,?_,?_,h.view,fun t ht data' hdata' => ?_⟩
  · rw [consult_of_some (hsame ▸ hdata) (allQueued_of hq (List.cons_ne_nil _ _)) (by simp [hless]),
      hless,if_neg (by simp)]
  · simp only [List.mem_append,List.mem_singleton,not_or]
    exact ⟨h.single,hne.symm⟩
  · rw [← List.cons_append]
    exact repeated_of_mem hg hsize
  · by_cases hbeyond : ∃ x ∈ t, x ∉ front :: kept
    · obtain ⟨x,hx,hnot⟩ := hbeyond
      obtain ⟨-,-,hfits,hbad⟩ := h.cache t (fun y hy => ht (hsub hy)) x hx hnot data' hdata'
      refine ⟨fun hm => ?_,hbad,fun _ _ _ => hfits⟩
      rw [hm] at hfits
      cases hfits
    · push Not at hbeyond
      rw [concatenateGuids_congr fun x => ⟨hbeyond x,fun hx => ht (hsub hx)⟩,hdata] at hdata'
      obtain rfl := Option.some.inj hdata'
      simp only [hless]
      exact ⟨by simp,by simp,fun x hx hnot => absurd (hsub (hbeyond x hx)) hnot⟩

/-- When first fit finds nothing the search finds nothing, unless somebody is in the queue twice
who has no players. -/
theorem matchQueued_none {front : Nat} (n : Nat) (kept all : List Nat) (s : Search)
    (hn : all.length ≤ n) (h : Live e d q front kept s) (hfront : front ∉ all)
    (hq : ∀ g ∈ front :: kept ++ all, d.getState g = .queued)
    (hscope : (front :: kept ++ all).Nodup ∨ Populated q (front :: kept ++ all) ∧
      ∃ data, s.queue.cached? (concatenateGuids (front :: kept)) = some data ∧
        data.compatibility = .withLessPlayers)
    (hfit : firstFit e d q (front :: kept) all = none) : Fruitless e d front n kept all s := by
  induction n generalizing kept all s with
  | zero =>
    obtain rfl : all = [] := by simpa using hn
    exact .nil
  | succ n ih =>
    cases all with
    | nil => exact .nil
    | cons g all =>
      have hlen : all.length ≤ n := by simpa using hn
      obtain ⟨hne,hfront'⟩ : g ≠ front ∧ front ∉ all := by simpa [eq_comm] using hfront
      have hq' : ∀ x ∈ front :: (kept ++ [g]), d.getState x = .queued :=
        fun x hx => hq x (taken_subset hx)
      by_cases hg : g ∈ front :: kept
      · obtain ⟨hpop,data,hdata,hless⟩ := hscope.resolve_left fun hnodup =>
          (List.nodup_append.mp hnodup).2.2 g hg g List.mem_cons_self rfl
        obtain ⟨hconsult,hdead⟩ := consult_repeated h hg hne hq' (hpop g (by simp)).1 hdata hless
        exact .cons hconsult (by simp) (.refl front s)
          (fun _ => matchQueued_dead n (kept ++ [g]) all s hlen hdead hfront'
            (fun x hx => hq x (inner_subset hx))
            fun x hx => (hpop x (inner_subset hx)).2) fun hc => absurd hc (by decide)
      · have hspec := consult_spec h hg hq'
        simp only [firstFit,if_neg hg,List.cons_append] at hfit
        rw [← hspec.answer] at hfit
        generalize hr : consult e d (front :: (kept ++ [g])) s = r at hspec hfit
        obtain ⟨c,s'⟩ := r
        have hnot : c ≠ .match := by
          rintro rfl
          cases hfit
        refine .cons hr hnot (hspec.none hnot) (fun hc => ?_) fun hc => ?_
        · obtain ⟨hlive,hkept⟩ := hspec.taken hc
          have hall : front :: (kept ++ [g]) ++ all = front :: kept ++ g :: all := by simp
          subst hc
          exact ih (kept ++ [g]) all s' hlen hlive hfront' (by rwa [hall])
            (by rw [hall]; exact hscope.imp_right fun hpop => ⟨hpop.1,hkept⟩) hfit
        · refine ih kept all s' hlen (hspec.passed hc) hfront'
            (fun x hx => hq x (passed_subset hx))
            (hscope.imp (fun hnodup => hnodup.sublist
                ((List.Sublist.refl (front :: kept)).append (List.sublist_cons_self g all)))
              fun ⟨hpop,data,hdata,hless⟩ =>
                ⟨fun x hx => hpop x (passed_subset hx),data,
                  hspec.holds hc (fun x hx => hpop.isSome (taken_subset hx)) data hdata,hless⟩) ?_
          cases c with
          | «match» => exact absurd rfl hnot
          | withLessPlayers => cases hc
          | _ => exact hfit

/-- The state in which `FindNewGroups` has looked at the new guid alone. -/
theorem findNewGroups_front {front : Nat} (all : List Nat) (s : Search)
    (hview : ∀ guid, s.queue.view guid = q.view guid) (hq : d.getState front = .queued)
    (hcache : s.queue.compatibleMapStore = .empty) :
    (compat e d q [front] = .match → (findNewGroups e d [front] all s).1 = .match ∧
      CreatedFor [front] s (findNewGroups e d [front] all s).2) ∧
    ((compat e d q [front]).fits = false → (findNewGroups e d [front] all s).1 ≠ .match ∧
      NoneFor front s (findNewGroups e d [front] all s).2) ∧
    (compat e d q [front] = .withLessPlayers → ∃ s', NoneFor front s s' ∧ Live e d q front [] s' ∧
      (∃ data, s'.queue.cached? (concatenateGuids [front]) = some data ∧
        data.compatibility = .withLessPlayers) ∧
      findNewGroups e d [front] all s = ((matchQueued e d all.length [front] all s').1,
        (matchQueued e d all.length [front] all s').2.2)) := by
  have hnone : ∀ key, s.queue.cached? key = none := by
    intro key
    rw [LFGQueue.cached?,hcache]
    rfl
  have hconsult := consult_of_none (e := e) (hnone (concatenateGuids [front]))
    (allQueued_of (d := d) (fun g hg => by rwa [List.mem_singleton.mp hg]) (by simp))
  have hfst := checkCompatibility_fst (e := e) (d := d) [front] s
  rw [compat_congr hview] at hfst
  obtain ⟨hout,hless,-⟩ := checkCompatibility_outcome (e := e) (d := d) (List.not_mem_nil (a := front)) s
  have hcaches := checkCompatibility_caches (e := e) (d := d) [front] s
  have hkeep := checkCompatibility_keeps (e := e) (d := d) [front] s
  simp only [findNewGroups,hconsult]
  generalize checkCompatibility e d [front] s = r at hfst hout hless hcaches hkeep ⊢
  obtain ⟨c,s'⟩ := r
  dsimp only at hfst hout hless hcaches hkeep
  rw [← hfst]
  refine ⟨?_,?_,?_⟩
  · rintro rfl
    rw [if_pos rfl] at hout
    exact ⟨rfl,hout⟩
  · intro hc
    cases c with
    | «match» => cases hc
    | withLessPlayers => cases hc
    | _ =>
      rw [if_neg (by simp)] at hout
      exact ⟨by simp,hout⟩
  · rintro rfl
    rw [if_neg (by simp)] at hout
    refine ⟨s',hout,⟨List.not_mem_nil,fun guid => (hkeep.view guid).trans (hview guid),?_⟩,
      hless rfl,rfl⟩
    intro t ht x hx hnot data hdata
    rcases hcaches _ _ hdata with hold | ⟨t',ht',heq⟩
    · rw [hnone] at hold
      cases hold
    · exact absurd (ht'.subset (mem_of_concatenateGuids_eq heq hx)) hnot

theorem findNewGroups_found {front : Nat} {t all : List Nat} (s : Search)
    (hview : ∀ guid, s.queue.view guid = q.view guid)
    (hq : ∀ g ∈ front :: all, d.getState g = .queued)
    (hcache : s.queue.compatibleMapStore = .empty) (hfit : firstFitFrom e d q front all = some t) :
    (findNewGroups e d [front] all s).1 = .match ∧
      CreatedFor t s (findNewGroups e d [front] all s).2 := by
  obtain ⟨hmatch,-,hless⟩ := findNewGroups_front (e := e) all s hview (hq front (by simp)) hcache
  simp only [firstFitFrom] at hfit
  split at hfit
  next hc =>
    obtain rfl := Option.some.inj hfit
    exact hmatch hc
  next hc =>
    obtain ⟨s',hs',hlive,-,heq⟩ := hless hc
    obtain ⟨h1,h2⟩ := matchQueued_found all.length [] all s' le_rfl hlive hq hfit
    rw [heq]
    exact ⟨h1,h2.of_keep hs'.1⟩
  next => cases hfit

theorem findNewGroups_none {front : Nat} {all : List Nat} (s : Search)
    (hview : ∀ guid, s.queue.view guid = q.view guid)
    (hq : ∀ g ∈ front :: all, d.getState g = .queued) (hfront : front ∉ all)
    (hscope : all.Nodup ∨ Populated q (front :: all))
    (hcache : s.queue.compatibleMapStore = .empty) (hfit : firstFitFrom e d q front all = none) :
    (findNewGroups e d [front] all s).1 ≠ .match ∧
      NoneFor front s (findNewGroups e d [front] all s).2 := by
  obtain ⟨-,hnot,hless⟩ := findNewGroups_front (e := e) all s hview (hq front (by simp)) hcache
  cases hc : compat e d q [front] with
  | «match» => simp [firstFitFrom,hc] at hfit
  | withLessPlayers =>
    obtain ⟨s',hs',hlive,hkept,heq⟩ := hless hc
    simp only [firstFitFrom,hc] at hfit
    obtain ⟨h1,-,h3⟩ := matchQueued_none all.length [] all s' le_rfl hlive hfront hq
      (hscope.imp (List.nodup_cons.mpr ⟨hfront,·⟩) fun hpop => ⟨hpop,hkept⟩) hfit
    rw [heq]
    exact ⟨h1,hs'.trans h3⟩
  | _ => exact hnot (by rw [hc]; rfl)

end FirstFit

end TrinityCore.Lfg
