import TrinityCore.Lib.Loop
import TrinityCore.Lib.TextFind

set_option autoImplicit false

namespace TrinityCore.Tools

open TextFind

inductive DumpTableType where
  | character
  | charTable
  | eqsetTable
  | inventory
  | mail
  | mailItem
  | item
  | itemGift
  | pet
  | petTable
  deriving DecidableEq, Repr

structure DumpTable where
  name : String
  type : DumpTableType
  deriving DecidableEq

def dumpTables : List DumpTable :=
  [⟨"characters",.character⟩,
   ⟨"character_account_data",.charTable⟩,
   ⟨"character_achievement",.charTable⟩,
   ⟨"character_achievement_progress",.charTable⟩,
   ⟨"character_action",.charTable⟩,
   ⟨"character_aura",.charTable⟩,
   ⟨"character_declinedname",.charTable⟩,
   ⟨"character_equipmentsets",.eqsetTable⟩,
   ⟨"character_glyphs",.charTable⟩,
   ⟨"character_homebind",.charTable⟩,
   ⟨"character_inventory",.inventory⟩,
   ⟨"character_pet",.pet⟩,
   ⟨"character_pet_declinedname",.pet⟩,
   ⟨"character_queststatus",.charTable⟩,
   ⟨"character_queststatus_rewarded",.charTable⟩,
   ⟨"character_reputation",.charTable⟩,
   ⟨"character_skills",.charTable⟩,
   ⟨"character_spell",.charTable⟩,
   ⟨"character_spell_cooldown",.charTable⟩,
   ⟨"character_talent",.charTable⟩,
   ⟨"mail",.mail⟩,
   ⟨"mail_items",.mailItem⟩,
   ⟨"pet_aura",.petTable⟩,
   ⟨"pet_spell",.petTable⟩,
   ⟨"pet_spell_cooldown",.petTable⟩,
   ⟨"item_instance",.item⟩,
   ⟨"character_gifts",.itemGift⟩]

section Writing

/-- How the client of the database escapes: which character comes behind the backslash. -/
structure Escaping where
  letter : Char → Char
  quote : letter '\'' = '\''
  backslash : letter '\\' = '\\'
  other : ∀ c, c ≠ '\'' → c ≠ '\\' → letter c ≠ '\'' ∧ letter c ≠ '\\'

/-- The characters that are escaped: backslash, both quotes, NUL, newline, carriage return and
Ctrl-Z. -/
def escaped : List Char := ['\\','\'','"',Char.ofNat 0,'\n','\r',Char.ofNat 26]

def Escaping.escapeString (esc : Escaping) (str : List Char) : List Char :=
  str.flatMap fun c => if c ∈ escaped then ['\\',esc.letter c] else [c]

def createDumpString (esc : Escaping) (tableName : String) (fields : List (List Char)) : List Char :=
  "INSERT INTO `".toList ++ tableName.toList ++ "` VALUES (".toList ++
    ((fields.mapIdx fun i field => (if i = 0 then "'".toList else ", '".toList) ++
      esc.escapeString field ++ "'".toList).flatten ++ ");".toList)

end Writing

section Searching

/-- Where `findnth` is: in the loop for the first column, at the head of the loop over the others,
in the loop for one of them, or at its end. -/
inductive Scan where
  | first (s : Nat)
  | found (i : Int) (s e : Nat)
  | next (i : Int) (e : Nat)
  | result (r : Option (Nat × Nat))
  deriving DecidableEq

def Scan.step (str : List Char) (n : Int) : Scan → Option Scan
  | .first s =>
    match findFrom '\'' str s with
    | none => some (.result none)
    -- the loop looks from the same place again
    | some e => if str[e-1]? = some '\\' then some (.first s) else some (.found 1 s e)
  | .found i s e => if i < n then some (.next i e) else some (.result (some (s,e)))
  | .next i e =>
    match findFrom '\'' str (e+4) with
    | none => some (.result none)
    | some e' => if str[e'-1]? = some '\\' then some (.next i e') else some (.found (i+1) (e+4) e')
  | .result _ => none

/-- Where the first column is looked for. If there is none, then `npos+9` is 8, which is not
`npos`. -/
def firstPlace (str : List Char) : Nat := ((findWord "VALUES ('".toList str).map fun p => p+9).getD 8

/-- `findnth` returns the place and the end of the column, or that there is none. -/
def Findnth (str : List Char) (n : Int) (r : Option (Nat × Nat)) : Prop :=
  Loop.Ends (Scan.step str n) (.first (firstPlace str)) (.result r)

def getAt (str : List Char) : Option (Nat × Nat) → List Char
  | none => []
  | some (s,e) => (str.drop s).take (e-s)

/-- The string after a change at the place that was found, if there was one. -/
def changeAt (str text : List Char) (insert nonzero : Bool) : Option (Nat × Nat) → Option (List Char)
  | none => none
  | some (s,e) =>
    if nonzero && getAt str (some (s,e)) == "0".toList then some str
    else if !insert then some (str.take s ++ text ++ str.drop e)
    else some (str.take s ++ text ++ str.drop s)

def Changenth (str : List Char) (n : Int) (text : List Char) (insert nonzero : Bool)
    (out : Option (List Char)) : Prop :=
  ∃ r, Findnth str n r ∧ changeAt str text insert nonzero r = out

end Searching

end TrinityCore.Tools
