import TrinityCore.Chat.LinkTurns

set_option autoImplicit false

/-!
# The tokens of a message

From outside a link the check goes over one token after the other: an escaped pipe or a link, each
with what is skipped in front of it. What is left at the end decides: the message is accepted, or a
trade link is open and the check never ends, or it fails.
-/

namespace TrinityCore.Chat

open Reading Istringstream

theorem Lead.ne_nil {l : List Char} (h : Lead l) : l ≠ [] := by
  rintro rfl
  obtain ⟨p, hp, -⟩ | ⟨-, h⟩ := h
  · simp at hp
  · simp at h

/-- A link as it is written: the blanks behind its pipes, its colour, type, data and caption. -/
structure Written where
  blanks : Fin 5 → List Char
  color : List Char
  type : LinkType
  data : List Char
  caption : List Char

namespace Written

/-- From behind the first pipe to the last but one h. -/
def front (k : Written) : List Char :=
  k.blanks 0 ++ 'c' :: (k.color ++ '|' :: (k.blanks 1 ++ 'H' :: (k.type.name ++ ':' :: (k.data ++
    '|' :: (k.blanks 2 ++ 'h' :: '[' :: (k.caption ++ ']' :: '|' :: (k.blanks 3 ++ ['h'])))))))

def text (k : Written) : List Char := k.front ++ '|' :: (k.blanks 4 ++ ['r'])

def Taken (st : Stores) (k : Written) : Prop :=
  (∀ i, Blank (k.blanks i)) ∧ ∃ color link, LinkExtractor.TakesColor k.color color ∧
    TakesData st color k.type k.data link ∧ LinkExtractor.TakesCaption st link k.caption

end Written

namespace LinkExtractor

inductive Token (st : Stores) : List Char → Prop
  | escaped {l b : List Char} : Lead l → Blank b → Token st (l ++ (b ++ ['|']))
  | link {l : List Char} {k : Written} : Lead l → k.Taken st → Token st (l ++ k.text)

/-- What a message can end with to be accepted. Blanks to the end pass where the command character,
never set, is the right one. -/
inductive Ending (st : Stores) (held : Char) : List Char → Prop
  | plain {e : List Char} : PlainEnd e → Ending st held e
  | lonePipe {e : List Char} : LonePipe e → Ending st held e
  | blanks {l b : List Char} : held = '|' → Lead l → Blank b → b ≠ [] → Ending st held (l ++ b)
  | linkBlanks {l : List Char} {k : Written} : held = 'r' → Lead l → k.Taken st →
      k.blanks 4 ≠ [] → Ending st held (l ++ (k.front ++ '|' :: k.blanks 4))

/-- A trade link that nothing closes: its numbers are read, and no pipe follows. -/
inductive OpenLink (st : Stores) : List Char → Prop
  | trade {l b ct b' y : List Char} {color : UInt32} : Lead l → Blank b → TakesColor ct color →
      Blank b' → OpenData st color y →
      OpenLink st (l ++ (b ++ 'c' :: (ct ++ '|' ::
        (b' ++ 'H' :: (LinkType.trade.name ++ ':' :: y)))))

section Tokens

variable {st : Stores} {held : Char} {color : UInt32} {link : Option ChatLink}
  {r : Except Stop Unit}

theorem Token.ne_nil {x : List Char} (h : Token st x) : x ≠ [] := by
  cases h with
  | escaped hl _ => exact List.append_ne_nil_of_left_ne_nil hl.ne_nil _
  | link hl _ => exact List.append_ne_nil_of_left_ne_nil hl.ne_nil _

variable (held color link r) in
theorem comes_front {l : List Char} {k : Written} (hl : Lead l) (hk : k.Taken st) :
    ∃ color' link', ∀ t, Comes st held ⟨0,color,link⟩ (ofText (l ++ (k.front ++ '|' :: t))) r ↔
      Comes st held ⟨4,color',link'⟩ (ofText ('|' :: t)) r := by
  obtain ⟨hb, color', link', hc, hd, hcap⟩ := hk
  refine ⟨color', some link', fun t => ?_⟩
  have htext : l ++ (k.front ++ '|' :: t) = l ++ (k.blanks 0 ++ 'c' :: (k.color ++ '|' ::
      (k.blanks 1 ++ 'H' :: (k.type.name ++ ':' :: (k.data ++ '|' :: (k.blanks 2 ++ 'h' :: '[' ::
        (k.caption ++ ']' :: '|' :: (k.blanks 3 ++ 'h' :: '|' :: t)))))))) := by
    simp [Written.front]
  rw [htext, comes_color hl (hb 0) hc, comes_link (hb 1) hd, comes_caption (hb 2) hcap,
    comes_closing (hb 3)]

variable (held color link r) in
theorem Token.comes {x : List Char} (h : Token st x) (u : List Char) :
    ∃ color' link', Comes st held ⟨0,color,link⟩ (ofText (x ++ u)) r ↔
      Comes st held ⟨0,color',link'⟩ (ofText u) r := by
  cases h with
  | @escaped l b hl hb =>
    refine ⟨color, none, ?_⟩
    rw [List.append_assoc, List.append_assoc]
    exact comes_escape hl hb u
  | @link l k hl hk =>
    obtain ⟨color', link', hf⟩ := comes_front held color link r hl hk
    refine ⟨color', link', ?_⟩
    have htext : l ++ k.text ++ u = l ++ (k.front ++ '|' :: (k.blanks 4 ++ 'r' :: u)) := by
      simp [Written.text]
    rw [htext, hf, comes_end (hk.1 4)]

theorem Ending.comes {e : List Char} (h : Ending st held e) :
    Comes st held ⟨0,color,link⟩ (ofText e) (.ok ()) := by
  cases h with
  | plain h => exact comes_plain rfl (Or.inl h)
  | lonePipe h => exact comes_plain rfl (Or.inr h)
  | blanks hheld hl hb hb0 =>
    exact comes_blanks (Or.inl ⟨rfl, hl⟩) hb hb0 (Or.inl ⟨rfl, hheld⟩)
  | @linkBlanks l k hheld hl hk hb0 =>
    obtain ⟨color', link', hf⟩ := comes_front held color link (.ok ()) hl hk
    rw [hf]
    exact comes_blanks (p := ⟨4,color',link'⟩) (l := ['|'])
      (Or.inr ⟨show (4 : Fin 5) ≠ 0 by decide, rfl⟩) (hk.1 4) hb0 (Or.inr ⟨rfl, hheld⟩)

theorem OpenLink.comes {e : List Char} (h : OpenLink st e) :
    Comes st held ⟨0,color,link⟩ (ofText e) (.error .hangs) := by
  cases h with
  | trade hl hb hc hb' hy =>
    rw [comes_color hl hb hc]
    exact comes_open hb' hy

theorem Fails.of_iff {p p' : Progress} {iss iss' : Istringstream}
    (h : ∀ r, Comes st held p iss r ↔ Comes st held p' iss' r) (hf : Fails st held p' iss') :
    Fails st held p iss := by
  obtain ⟨e, he, hc⟩ := hf
  exact ⟨e, he, (h _).mpr hc⟩

variable (st held color) in
theorem closing_cases (link' : ChatLink) (s : List Char) :
    (∃ b cap b' t, Blank b ∧ TakesCaption st link' cap ∧ Blank b' ∧
        s = '|' :: (b ++ 'h' :: '[' :: (cap ++ ']' :: '|' :: (b' ++ 'h' :: t)))) ∨
      Fails st held ⟨2,color,some link'⟩ (ofText s) := by
  obtain ⟨b, cap, t, hb, hcap, rfl⟩ | hf :=
    caption_cases st held color link' s
  · obtain ⟨b', t, hb', rfl⟩ | ⟨hu, -⟩ | hf :=
      place_cases st held color (some link') (show (3 : Fin 5) ≠ 0 by decide) t
    · exact Or.inl ⟨b, cap, b', t, hb, hcap, hb', rfl⟩
    · exact absurd hu (not_unset (by decide) (by decide))
    · exact Or.inr (Fails.of_iff (fun r => comes_caption hb hcap t) hf)
  · exact Or.inr hf

variable (st held color link) in
/-- Behind the colour of a link stands the rest of it up to its last h, or a trade link is open to
the end, or the check fails. -/
theorem body_cases (s : List Char) :
    (∃ b type d link' b' cap b'' t, Blank b ∧ TakesData st color type d link' ∧ Blank b' ∧
        TakesCaption st link' cap ∧ Blank b'' ∧
        s = '|' :: (b ++ 'H' :: (type.name ++ ':' :: (d ++ '|' :: (b' ++ 'h' :: '[' ::
          (cap ++ ']' :: '|' :: (b'' ++ 'h' :: t))))))) ∨
      (∃ b y, Blank b ∧ OpenData st color y ∧
        s = '|' :: (b ++ 'H' :: (LinkType.trade.name ++ ':' :: y))) ∨
      Fails st held ⟨1,color,link⟩ (ofText s) := by
  obtain ⟨b, type, d, link', t, hb, hd, rfl⟩ | hopen | hf :=
    link_cases st held color link s
  · obtain ⟨b', cap, b'', t', hb', hcap, hb'', ht⟩ | hf :=
      closing_cases st held color link' ('|' :: t)
    · injection ht with _ ht
      subst ht
      exact Or.inl ⟨b, type, d, link', b', cap, b'', t', hb, hd, hb', hcap, hb'', rfl⟩
    · exact Or.inr (Or.inr (Fails.of_iff (fun r => comes_link hb hd t) hf))
  · exact Or.inr (Or.inl hopen)
  · exact Or.inr (Or.inr hf)

variable (st held color link) in
theorem token_cases (s : List Char) :
    Ending st held s ∨ OpenLink st s ∨ (∃ x u, Token st x ∧ s = x ++ u) ∨
      Fails st held ⟨0,color,link⟩ (ofText s) := by
  obtain ⟨l, b, t, hl, hb, rfl⟩ | ⟨l, b, ct, color', t, hl, hb, hct, rfl⟩ |
      ⟨hheld, l, b, hl, hb, hb0, rfl⟩ | (h | h) | hf :=
    start_cases st held color link s
  · exact Or.inr (Or.inr (Or.inl ⟨_, t, .escaped hl hb, by simp⟩))
  · obtain ⟨b1, type, d, link', b2, cap, b3, t', hb1, hd, hb2, hcap, hb3, ht⟩ |
        ⟨b1, y, hb1, hy, ht⟩ | hf :=
      body_cases st held color' none ('|' :: t)
    · injection ht with _ ht
      subst ht
      have taken {b4 : List Char} (hb4 : Blank b4) :
          Written.Taken st ⟨![b,b1,b2,b3,b4],ct,type,d,cap⟩ := by
        refine ⟨fun i => ?_, color', link', hct, hd, hcap⟩
        obtain rfl | rfl | rfl | rfl | rfl := position_cases i
        · exact hb
        · exact hb1
        · exact hb2
        · exact hb3
        · exact hb4
      obtain ⟨b4, u, hb4, rfl⟩ | ⟨hu, b4, hb4, hb40, rfl⟩ | hf :=
        place_cases st held color' (some link') (show (4 : Fin 5) ≠ 0 by decide) t'
      · refine Or.inr (Or.inr (Or.inl ⟨_, u, .link hl (taken hb4), ?_⟩))
        simp [Written.text, Written.front, validSequence]
      · have hheld : held = 'r' := hu.elim (fun h => absurd h.1 (by decide)) fun h => h.2
        left
        have hend := Ending.linkBlanks hheld hl (taken hb4) hb40
        have htext : l ++ (Written.front ⟨![b,b1,b2,b3,b4],ct,type,d,cap⟩ ++ '|' :: b4) =
            l ++ (b ++ 'c' :: (ct ++ '|' :: (b1 ++ 'H' :: (type.name ++ ':' :: (d ++ '|' ::
              (b2 ++ 'h' :: '[' :: (cap ++ ']' :: '|' :: (b3 ++ 'h' :: '|' :: b4)))))))) := by
          simp [Written.front]
        rw [← htext]
        exact hend
      · refine Or.inr (Or.inr (Or.inr (Fails.of_iff (fun r => ?_) hf)))
        rw [comes_color hl hb hct, comes_link hb1 hd, comes_caption hb2 hcap, comes_closing hb3]
    · injection ht with _ ht
      subst ht
      exact Or.inr (Or.inl (.trade hl hb hct hb1 hy))
    · exact Or.inr (Or.inr (Or.inr (Fails.of_iff (fun r => comes_color hl hb hct t) hf)))
  · exact Or.inl (.blanks hheld hl hb hb0)
  · exact Or.inl (.plain h)
  · exact Or.inl (.lonePipe h)
  · exact Or.inr (Or.inr (Or.inr hf))

theorem sentence_of_comes {Last : List Char → Prop} (hr : r = .ok () ∨ r = .error .hangs)
    (hend : ∀ e, Ending st held e → r = .ok () → Last e)
    (hopen : ∀ e, OpenLink st e → r = .error .hangs → Last e) {s : List Char}
    (h : ∃ color link, Comes st held ⟨0,color,link⟩ (ofText s) r) :
    Sentence (Token st) Last s := by
  refine Sentence.of_cases (P := fun s => ∃ color link, Comes st held ⟨0,color,link⟩ (ofText s) r)
    (fun s hs => ?_) h
  obtain ⟨color, link, hs⟩ := hs
  obtain he | ho | ⟨x, u, hx, rfl⟩ | ⟨e, he, hf⟩ :=
    token_cases st held color link s
  · exact Or.inl (hend s he (Settles.unique hs he.comes))
  · exact Or.inl (hopen s ho (Settles.unique hs ho.comes))
  · obtain ⟨color', link', hc⟩ := hx.comes held color link r u
    exact Or.inr ⟨x, u, hx, hx.ne_nil, rfl, color', link', hc.mp hs⟩
  · have heq := Settles.unique hs hf
    obtain rfl | rfl := hr
    · cases heq
    · cases heq
      exact absurd rfl he

theorem comes_of_sentence {Last : List Char → Prop}
    (hlast : ∀ e, Last e → ∀ color link, Comes st held ⟨0,color,link⟩ (ofText e) r) {s : List Char}
    (h : Sentence (Token st) Last s) :
    ∀ color link, Comes st held ⟨0,color,link⟩ (ofText s) r := by
  induction h with
  | last he => exact hlast _ he
  | @cons x u hx _ ih =>
    intro color link
    obtain ⟨color', link', hc⟩ := hx.comes held color link r u
    exact hc.mpr (ih color' link')

end Tokens

end LinkExtractor

end TrinityCore.Chat
