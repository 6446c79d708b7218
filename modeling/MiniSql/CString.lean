import Mathlib.Data.List.Basic
import Mathlib.Data.List.TakeWhile

set_option autoImplicit false

/-!
# C strings, character classes and `sql_stricmp`

A file holds arbitrary bytes.  A `char *` is read up to its first NUL, so a C
string is modelled by the bytes before that NUL and the end of the list stands
for the terminator.  The character classes are those of the "C" locale: the
program never calls `setlocale`.
-/

namespace MiniSql

/-- A `char` read as `unsigned char`. -/
abbrev Byte : Type := UInt8

/-- The bytes of a file, or those of a C string before its NUL. -/
abbrev Bytes : Type := List Byte

/-- The C string a `char *` to a buffer with this content denotes. -/
def cString (content : Bytes) : Bytes := content.takeWhile (· != 0)

/-- No byte is NUL, so the bytes can be held in a C string. -/
def NulFree (s : Bytes) : Prop := (0 : Byte) ∉ s

instance (s : Bytes) : Decidable (NulFree s) := inferInstanceAs (Decidable (¬ _))

theorem cString_nulFree (content : Bytes) : NulFree (cString content) := by
  intro hmem
  have := List.mem_takeWhile_imp hmem
  simp at this

theorem cString_of_nulFree {s : Bytes} (h : NulFree s) : cString s = s := by
  unfold cString
  rw [List.takeWhile_eq_self_iff]
  intro b hb
  simp only [bne_iff_ne, ne_eq]
  rintro rfl
  exact h hb

theorem NulFree.append {s t : Bytes} (hs : NulFree s) (ht : NulFree t) :
    NulFree (s ++ t) := by
  unfold NulFree at *
  simp [hs, ht]

/-- The bytes of an ASCII literal of the source. -/
def ascii (s : String) : Bytes := s.toList.map Char.toUInt8

/-- The digits printed for a count. -/
def decimal (n : Nat) : Bytes := (Nat.toDigits 10 n).map Char.toUInt8

/-- What `snprintf` leaves in a buffer of `size` bytes: the text, cut so that
the terminator still fits. -/
def snprintf (size : Nat) (text : Bytes) : Bytes := text.take (size - 1)

/-! ## Bytes with a meaning in the data format or in SQL -/

def newline : Byte := 0x0A
def carriageReturn : Byte := 0x0D
def space : Byte := 0x20
def quote : Byte := 0x27
def lparen : Byte := 0x28
def rparen : Byte := 0x29
def star : Byte := 0x2A
def comma : Byte := 0x2C
def minus : Byte := 0x2D
def dot : Byte := 0x2E
def slash : Byte := 0x2F
def semicolon : Byte := 0x3B
def equal : Byte := 0x3D
def backslash : Byte := 0x5C
def underscore : Byte := 0x5F
def letterN : Byte := 0x6E
def letterR : Byte := 0x72
def pipe : Byte := 0x7C

/-! ## Character classes -/

def isspace (c : Byte) : Bool := c == space || (0x09 ≤ c && c ≤ 0x0D)

def isdigit (c : Byte) : Bool := 0x30 ≤ c && c ≤ 0x39

def isalpha (c : Byte) : Bool := (0x41 ≤ c && c ≤ 0x5A) || (0x61 ≤ c && c ≤ 0x7A)

def isalnum (c : Byte) : Bool := isalpha c || isdigit c

def tolower (c : Byte) : Byte := if 0x41 ≤ c && c ≤ 0x5A then c + 0x20 else c

theorem tolower_eq_zero_iff (c : Byte) : tolower c = 0 ↔ c = 0 := by
  unfold tolower
  grind

theorem tolower_toNat_inj {a b : Byte} :
    ((tolower a).toNat : Int) - (tolower b).toNat = 0 ↔ tolower a = tolower b := by
  rw [← UInt8.toNat_inj]
  omega

/-! ## Case-insensitive comparison -/

/-- `sql_stricmp`: the difference of the first two lower-cased bytes that
differ, the terminator counting as NUL. -/
def sqlStricmp : Bytes → Bytes → Int
  | a :: left, b :: right =>
      if tolower a ≠ tolower b then (tolower a).toNat - (tolower b).toNat
      else sqlStricmp left right
  | left, right =>
      ((tolower (left.headD 0)).toNat : Int) - (tolower (right.headD 0)).toNat

/-- A string with every letter in lower case. -/
def foldCase (s : Bytes) : Bytes := s.map tolower

/-- The comparison sees its operands only up to letter case. -/
theorem sqlStricmp_congr_right {left right right' : Bytes}
    (h : foldCase right = foldCase right') :
    sqlStricmp left right = sqlStricmp left right' := by
  induction left generalizing right right' with
  | nil =>
      cases right <;> cases right' <;> simp_all [foldCase, sqlStricmp]
  | cons a left ih =>
      cases right with
      | nil =>
          have : right' = [] := by simpa [foldCase, eq_comm] using h
          rw [this]
      | cons b right =>
          cases right' with
          | nil => simp [foldCase] at h
          | cons b' right' =>
              simp only [foldCase, List.map_cons, List.cons.injEq] at h
              simp only [sqlStricmp, h.1, ih h.2]

/-- On C strings `sql_stricmp` answers 0 exactly for strings equal up to letter
case. -/
theorem sqlStricmp_eq_zero_iff {left right : Bytes}
    (hleft : NulFree left) (hright : NulFree right) :
    sqlStricmp left right = 0 ↔ foldCase left = foldCase right := by
  induction left generalizing right with
  | nil =>
      cases right with
      | nil => simp [sqlStricmp, foldCase]
      | cons b right =>
          have hb : b ≠ 0 := fun hb => hright (by simp [hb])
          simp only [sqlStricmp, List.headD, foldCase]
          rw [tolower_toNat_inj, eq_comm, show tolower 0 = 0 from rfl,
            tolower_eq_zero_iff]
          simp [hb]
  | cons a left ih =>
      have ha : a ≠ 0 := fun ha => hleft (by simp [ha])
      cases right with
      | nil =>
          simp only [sqlStricmp, List.headD, foldCase]
          rw [tolower_toNat_inj, show tolower 0 = 0 from rfl, tolower_eq_zero_iff]
          simp [ha]
      | cons b right =>
          have hl : NulFree left := fun h => hleft (List.mem_cons_of_mem _ h)
          have hr : NulFree right := fun h => hright (List.mem_cons_of_mem _ h)
          simp only [sqlStricmp, foldCase, List.map_cons, List.cons.injEq]
          by_cases hab : tolower a = tolower b
          · simpa [hab, foldCase] using ih hl hr
          · simp only [ne_eq, hab, not_false_eq_true, if_true, false_and, iff_false]
            exact fun h => hab (tolower_toNat_inj.mp h)

end MiniSql
