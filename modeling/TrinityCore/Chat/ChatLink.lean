import Mathlib.Data.Fin.VecNotation
import TrinityCore.Chat.Istringstream

set_option autoImplicit false

/-!
# Chat links

The link types of a chat message: how each reads its data off the stream and which captions it
takes. A reader of the source returns false where the one here refuses; what the server looks up is
a parameter. The name a link keeps of its caption and its bounds in the message, which nothing reads
while the message is checked, are left out.
-/

namespace TrinityCore.Chat

open Reading Istringstream

/-! ## What is looked up -/

def totalLocales : Nat := 9

def maxItemQuality : Nat := 8

abbrev Names := Fin totalLocales → List Char

structure ItemTemplate where
  itemId : UInt32
  name1 : List Char
  quality : Fin maxItemQuality

structure RandomEntry where
  nameSuffix : Names

structure Quest where
  questId : UInt32
  title : List Char

structure SpellInfo where
  id : UInt32
  attributes : UInt32
  spellName : Names

structure AchievementEntry where
  id : UInt32
  name : Names

instance neZero_five : NeZero 5 := ⟨by decide⟩

structure TalentEntry where
  rankID : Fin 5 → UInt32

structure GlyphPropertiesEntry where
  spellId : UInt32

structure SkillLineAbilityEntry where
  skillId : UInt32

structure SkillLineEntry where
  name : Names

structure Stores where
  getItemTemplate : UInt32 → Option ItemTemplate
  /-- The names of an item's locale, as many as were loaded. -/
  getItemLocale : UInt32 → Option (List (List Char))
  itemRandomProperties : UInt32 → Option RandomEntry
  itemRandomSuffix : UInt32 → Option RandomEntry
  getQuestTemplate : UInt32 → Option Quest
  getQuestLocale : UInt32 → Option (List (List Char))
  getSpellInfo : UInt32 → Option SpellInfo
  getAchievement : UInt32 → Option AchievementEntry
  talent : UInt32 → Option TalentEntry
  glyphProperties : UInt32 → Option GlyphPropertiesEntry
  /-- The abilities of a spell; a null pointer is `none`. -/
  skillLineAbilities : UInt32 → List (Option SkillLineAbilityEntry)
  skillLine : UInt32 → Option SkillLineEntry

def itemQualityColors : Fin maxItemQuality → UInt32 :=
  ![0xff9d9d9d,0xffffffff,0xff1eff00,0xff0070dd,0xffa335ee,0xffff8000,0xffe6cc80,0xffe6cc80]

def chatLinkColorTrade : UInt32 := 0xffffd000
def chatLinkColorTalent : UInt32 := 0xff4e96f7
def chatLinkColorSpell : UInt32 := 0xff71d5ff
def chatLinkColorEnchant : UInt32 := 0xffffd000
def chatLinkColorAchievement : UInt32 := 0xffffff00
def chatLinkColorGlyph : UInt32 := 0xff66bbff

def strongMaxLevel : Int := 255

def spellAttr0TradeSpell : UInt32 := 0x20

def DELIMITER : Char := ':'
def pipeChar : Char := '|'

/-! ## The readers -/

/-- `return false` unless the condition holds. -/
def check (b : Bool) : Reader Istringstream Unit := if b then pure () else stop .rejects

def found {α : Type} : Option α → Reader Istringstream α
  | some a => pure a
  | none => stop .rejects

def succeeded {τ : Type} (res : Option τ) : Reader Istringstream τ := fun iss =>
  match res with
  | some v => if iss.fail || iss.eof then .error .rejects else .ok (v,iss)
  | none => .error .rejects

def readUInt32 : Reader Istringstream UInt32 := do
  let res ← extractNumber 10 toUInt32
  succeeded res

def readInt32 : Reader Istringstream Int := do
  let res ← extractNumber 10 toInt32
  succeeded res

def toChar : Option Char → Char
  | some c => c
  | none => '\xff'

def readSkip (term : Char) : Nat → Reader Istringstream (List Char)
  | 0 => stop .hangs
  | fuel + 1 => do
    let c ← peek
    if toChar c ≠ term ∧ toChar c ≠ '\x00' then do
      ignore 1 none
      let res ← readSkip term fuel
      pure (toChar c :: res)
    else pure []

def checkDelimiter (delimiter : Char) : Reader Istringstream Unit := do
  let c ← peek
  check (toChar c = delimiter)
  ignore 1 none

/-- How far it is to the end; `tellg()` says how far it is from the start. -/
def remaining : Reader Istringstream Nat := fun iss => .ok (iss.rest.length,iss)

/-- Where `tellg()` fails the stream has eof or fail set, and the reader refuses either way. -/
def readHex (length : Nat) : Reader Istringstream UInt32 := do
  let pos ← remaining
  let res ← extractNumber 16 toUInt32
  let behind ← remaining
  check (length = 0 ∨ (pos - behind) % 2 ^ 32 = length)
  succeeded res

/-! ## The links -/

structure ItemProps where
  data : List Int
  property : Option RandomEntry
  suffix : Option RandomEntry

inductive ChatLink
  | item (item : ItemTemplate) (props : ItemProps)
  | quest (quest : Quest) (questLevel : Int)
  | spell (spell : SpellInfo)
  | achievement (guid : UInt32) (achievement : AchievementEntry) (data : List UInt32)
  | trade (spell : SpellInfo) (minSkillLevel maxSkillLevel : Int) (guid : UInt32)
      (base64 : List Char)
  | talent (talentId : UInt32) (rankId : Int) (spell : SpellInfo)
  | enchant (spell : SpellInfo)
  | glyph (slotId : UInt32) (glyph : GlyphPropertiesEntry) (spell : SpellInfo)

section Initialize

variable (st : Stores) (color : UInt32)

def randomPropertyPosition : Nat := 5

/-- The random property of an item: a positive id is a property, a negative one a suffix. -/
def validateRandom (index : Nat) (id : Int) (props : ItemProps) :
    Reader Istringstream ItemProps :=
  if id ≠ 0 ∧ index = randomPropertyPosition then
    if id > 0 then do
      let property ← found (st.itemRandomProperties (UInt32.ofNat id.toNat))
      pure { props with property := some property }
    else do
      let suffix ← found (st.itemRandomSuffix (UInt32.ofNat (-id).toNat))
      pure { props with suffix := some suffix }
  else pure props

def readItemProps : List Nat → ItemProps → Reader Istringstream ItemProps
  | [],props => pure props
  | index :: rest,props => do
    checkDelimiter DELIMITER
    let id ← readInt32
    let props ← validateRandom st index id props
    readItemProps rest { props with data := props.data ++ [id] }

def ItemChatLink.initializeFrom : Reader Istringstream ChatLink := do
  let itemEntry ← readUInt32
  let item ← found (st.getItemTemplate itemEntry)
  check (color = itemQualityColors item.quality)
  let props ← readItemProps st (List.range 8) ⟨[],none,none⟩
  pure (.item item props)

def QuestChatLink.initializeFrom : Reader Istringstream ChatLink := do
  let questId ← readUInt32
  let quest ← found (st.getQuestTemplate questId)
  checkDelimiter DELIMITER
  let questLevel ← readInt32
  check (questLevel < strongMaxLevel)
  pure (.quest quest questLevel)

def SpellChatLink.initializeFrom : Reader Istringstream ChatLink := do
  check (color = chatLinkColorSpell)
  let spellId ← readUInt32
  let spell ← found (st.getSpellInfo spellId)
  pure (.spell spell)

def readProgress : Nat → Reader Istringstream (List UInt32)
  | 0 => pure []
  | n + 1 => do
    checkDelimiter DELIMITER
    let property ← readUInt32
    let rest ← readProgress n
    pure (property :: rest)

def AchievementChatLink.initializeFrom : Reader Istringstream ChatLink := do
  check (color = chatLinkColorAchievement)
  let achievementId ← readUInt32
  let achievement ← found (st.getAchievement achievementId)
  checkDelimiter DELIMITER
  let guid ← readHex 0
  let data ← readProgress 8
  pure (.achievement guid achievement data)

/-- What a trade link reads in front of its base64 data: the spell, the two skill levels and the
guid. -/
def TradeChatLink.readHead : Reader Istringstream (SpellInfo × Int × Int × UInt32) := do
  check (color = chatLinkColorTrade)
  let spellId ← readUInt32
  let spell ← found (st.getSpellInfo spellId)
  checkDelimiter DELIMITER
  let minSkillLevel ← readInt32
  checkDelimiter DELIMITER
  let maxSkillLevel ← readInt32
  checkDelimiter DELIMITER
  let guid ← readHex 0
  pure (spell,minSkillLevel,maxSkillLevel,guid)

def TradeChatLink.initializeFrom (fuel : Nat) : Reader Istringstream ChatLink := do
  let (spell,minSkillLevel,maxSkillLevel,guid) ← TradeChatLink.readHead st color
  let base64 ← readSkip pipeChar fuel
  pure (.trade spell minSkillLevel maxSkillLevel guid base64)

def TalentChatLink.initializeFrom : Reader Istringstream ChatLink := do
  check (color = chatLinkColorTalent)
  let talentId ← readUInt32
  let talentInfo ← found (st.talent talentId)
  let spell ← found (st.getSpellInfo (talentInfo.rankID 0))
  checkDelimiter DELIMITER
  let rankId ← readInt32
  pure (.talent talentId rankId spell)

def EnchantmentChatLink.initializeFrom : Reader Istringstream ChatLink := do
  check (color = chatLinkColorEnchant)
  let spellId ← readUInt32
  let spell ← found (st.getSpellInfo spellId)
  pure (.enchant spell)

def GlyphChatLink.initializeFrom : Reader Istringstream ChatLink := do
  check (color = chatLinkColorGlyph)
  let slotId ← readUInt32
  checkDelimiter DELIMITER
  let glyphId ← readUInt32
  let glyph ← found (st.glyphProperties glyphId)
  let spell ← found (st.getSpellInfo glyph.spellId)
  pure (.glyph slotId glyph spell)

inductive LinkType
  | item
  | quest
  | trade
  | talent
  | spell
  | enchant
  | achievement
  | glyph
  deriving DecidableEq, Repr

def LinkType.name : LinkType → List Char
  | .item => ['i','t','e','m']
  | .quest => ['q','u','e','s','t']
  | .trade => ['t','r','a','d','e']
  | .talent => ['t','a','l','e','n','t']
  | .spell => ['s','p','e','l','l']
  | .enchant => ['e','n','c','h','a','n','t']
  | .achievement => ['a','c','h','i','e','v','e','m','e','n','t']
  | .glyph => ['g','l','y','p','h']

def LinkType.all : List LinkType :=
  [.item,.quest,.trade,.talent,.spell,.enchant,.achievement,.glyph]

def linkTypeOf (buffer : List Char) : Option LinkType :=
  LinkType.all.find? fun type => type.name = buffer

def initializeFrom (fuel : Nat) : LinkType → Reader Istringstream ChatLink
  | .item => ItemChatLink.initializeFrom st color
  | .quest => QuestChatLink.initializeFrom st
  | .trade => TradeChatLink.initializeFrom st color fuel
  | .talent => TalentChatLink.initializeFrom st color
  | .spell => SpellChatLink.initializeFrom st color
  | .enchant => EnchantmentChatLink.initializeFrom st color
  | .achievement => AchievementChatLink.initializeFrom st color
  | .glyph => GlyphChatLink.initializeFrom st color

end Initialize

/-! ## Captions -/

section ValidateName

variable (st : Stores)

def ItemChatLink.formatName (item : ItemTemplate) (index : Fin totalLocales)
    (locale : Option (List (List Char))) (suffixStrings : Option Names) : List Char :=
  let name := match locale with
    | none => item.name1
    | some names => names.getD index.val item.name1
  match suffixStrings with
  | none => name
  | some suffix => name ++ ' ' :: suffix index

def ItemChatLink.validateName (item : ItemTemplate) (props : ItemProps) (buffer : List Char) :
    Bool :=
  let suffixStrings := match props.suffix with
    | some suffix => some suffix.nameSuffix
    | none => props.property.map RandomEntry.nameSuffix
  let locale := st.getItemLocale item.itemId
  ItemChatLink.formatName item ⟨0,by decide⟩ none suffixStrings = buffer ||
    (List.finRange totalLocales).any fun index =>
      0 < index.val && ItemChatLink.formatName item index locale suffixStrings = buffer

def QuestChatLink.validateName (quest : Quest) (buffer : List Char) : Bool :=
  quest.title = buffer || match st.getQuestLocale quest.questId with
    | none => false
    | some titles => titles.any fun title => title = buffer

/-- Whether a text is a name in some language; a language without a name has the empty one. -/
def inSomeLocale (names : Names) (buffer : List Char) : Bool :=
  (List.finRange totalLocales).any fun i => names i ≠ [] && names i = buffer

/-- The move over a profession's name and the two characters behind it. The count is a `uint32`: of
a caption that is one character longer than the name nothing is moved, and of one that is the name
alone the move goes over the whole memory. -/
def movePast (length : Nat) (buffer : List Char) : Except Stop (List Char) :=
  if length + 2 ≤ buffer.length then .ok (buffer.drop (length + 2))
  else if length + 1 = buffer.length then .ok buffer
  else .error .crashes

def dropProfession (names : Names) (buffer : List Char) : Except Stop (List Char) :=
  match (List.finRange totalLocales).find? fun i =>
      names i ≠ [] && (names i).isPrefixOf buffer with
  | some i => movePast (names i).length buffer
  | none => .ok buffer

/-- The profession of a recipe: the skill line of the spell's first ability. -/
def skillLineOf (spell : SpellInfo) : Option SkillLineEntry :=
  match st.skillLineAbilities spell.id with
  | some skillInfo :: _ => st.skillLine skillInfo.skillId
  | _ => none

def SpellChatLink.validateName (spell : SpellInfo) (buffer : List Char) : Except Stop Bool :=
  if spell.attributes &&& spellAttr0TradeSpell ≠ 0 then
    match skillLineOf st spell with
    | none => .ok false
    | some skillLine => do
      let buffer ← dropProfession skillLine.name buffer
      pure (inSomeLocale spell.spellName buffer)
  else .ok (inSomeLocale spell.spellName buffer)

def validateName : ChatLink → List Char → Except Stop Bool
  | .item item props,buffer => .ok (ItemChatLink.validateName st item props buffer)
  | .quest quest _,buffer => .ok (QuestChatLink.validateName st quest buffer)
  | .achievement _ achievement _,buffer => .ok (inSomeLocale achievement.name buffer)
  | .spell spell,buffer => SpellChatLink.validateName st spell buffer
  | .trade spell _ _ _ _,buffer => SpellChatLink.validateName st spell buffer
  | .talent _ _ spell,buffer => SpellChatLink.validateName st spell buffer
  | .enchant spell,buffer => SpellChatLink.validateName st spell buffer
  | .glyph _ _ spell,buffer => SpellChatLink.validateName st spell buffer

end ValidateName

/-! ## The message -/

def validSequence : Fin 5 → Char := ![ 'c','H','h','h','r']

/-- Where the check stands in a link, and what it has read of the link. -/
structure Progress where
  position : Fin 5
  color : UInt32
  link : Option ChatLink

namespace LinkExtractor

variable (st : Stores)

/-- Outside a link the text up to the next pipe is skipped, in a link the pipe has to be there. -/
def approach (position : Fin 5) : Reader Istringstream Unit :=
  if position = 0 then ignore 255 (some pipeChar)
  else do
    let c ← Istringstream.get
    check (c = some pipeChar)

/-- The command behind the pipe: `none` where the message ends before there is one. -/
def nextCommand (held : Char) : Reader Istringstream (Option Char) := do
  let c ← peek
  check (c ≠ some '\x00')
  let ended ← atEnd
  if ended then pure none
  else do
    let commandChar ← extractChar held
    pure (some commandChar)

def enter (p : Progress) : Progress := if p.position = 0 then { p with link := none } else p

/-- The command has to be the next of the sequence; only outside a link a pipe may be escaped. -/
def advance (p : Progress) (commandChar : Char) : Reader Istringstream Progress :=
  if commandChar ≠ pipeChar then
    if commandChar = validSequence p.position then
      pure { p with position := if p.position = 4 then 0 else p.position + 1 }
    else stop .rejects
  else if p.position ≠ 0 then stop .rejects
  else pure p

def readLink (fuel : Nat) (p : Progress) : Reader Istringstream Progress := do
  let buffer ← getline 256 DELIMITER
  let ended ← atEnd
  check (!ended)
  let type ← found (linkTypeOf buffer)
  let link ← initializeFrom st p.color fuel type
  pure { p with link := some link }

def validateCaption (link : ChatLink) (buffer : List Char) : Reader Istringstream Unit := fun iss =>
  match validateName st link buffer with
  | .ok true => .ok ((),iss)
  | .ok false => .error .rejects
  | .error e => .error e

def readCaption (p : Progress) : Reader Istringstream Progress :=
  if validSequence p.position = 'h' then do
    let c ← Istringstream.get
    check (c = some '[')
    let buffer ← getline 256 ']'
    let ended ← atEnd
    check (!ended)
    let link ← found p.link
    validateCaption st link buffer
    pure p
  else pure p

def payload (fuel : Nat) (p : Progress) (commandChar : Char) : Reader Istringstream Progress :=
  if commandChar = 'c' then do
    let color ← readHex 8
    pure { p with color := color }
  else if commandChar = 'H' then readLink st fuel p
  else if commandChar = 'h' then readCaption st p
  else if commandChar = 'r' then pure p
  else if commandChar = pipeChar then pure p
  else stop .rejects

def turn (held : Char) (fuel : Nat) (p : Progress) : Reader Istringstream (Option Progress) := do
  approach p.position
  let c ← nextCommand held
  match c with
  | none => pure none
  | some commandChar => do
    let p ← advance (enter p) commandChar
    let p ← payload st fuel p commandChar
    pure (some p)

/-- The loop over the message. Fuel counts its turns and, in a turn, those of the loops inside it.
At the end every sequence that was opened has to be closed. -/
def loop (held : Char) : Nat → Progress → Reader Istringstream Unit
  | 0,_ => stop .hangs
  | fuel + 1,p => do
    let ended ← atEnd
    if ended then check (p.position = 0)
    else do
      let next ← turn st held fuel p
      match next with
      | none => check (p.position = 0)
      | some p => loop held fuel p

/-- `true` is the end of a reader that got through, `false` of one that refuses. `held` is what the
command character holds before anything is read into it: the source leaves it as it is. -/
def isValidMessage (held : Char) (fuel : Nat) (message : List Char) : Except Stop Unit :=
  (loop st held fuel ⟨0,0,none⟩ (ofText message)).map fun _ => ()

end LinkExtractor

end TrinityCore.Chat
