import Newmux.Keys.Scroll

/-!
# The grammar of scroll packets

`ESC [ ? 7777 ; f1 ; … ~` with six or eight fields, each a decimal integer in 64-bit
range, the third not zero and the coordinates, if any, not negative.
-/

namespace Newmux.Keys

open Newmux.Base

/-- What the field at place `k`, from zero, has to be. -/
def FieldOk (k : Nat) (t : List Char) : Prop :=
  IsLong t ∧ (k = 2 → Decimal.value t ≠ 0) ∧ (6 ≤ k → 0 ≤ Decimal.value t)

/-- Six or eight fields, each as it has to be. -/
def FieldsOk (fields : List (List Char)) : Prop :=
  (fields.length = 6 ∨ fields.length = 8) ∧ ∀ k (hk : k < fields.length), FieldOk k fields[k]

instance (k : Nat) (t : List Char) : Decidable (FieldOk k t) :=
  inferInstanceAs (Decidable (_ ∧ _ ∧ _))
instance (fields : List (List Char)) : Decidable (FieldsOk fields) :=
  inferInstanceAs (Decidable (_ ∧ _))

def packetId : List Char := "7777".toList

/-- What stands between `ESC [ ?` and the tilde. -/
def packetText (fields : List (List Char)) : List Char := [';'].intercalate (packetId :: fields)

def packet (fields : List (List Char)) : List Char :=
  esc :: '[' :: '?' :: (packetText fields ++ ['~'])

/-- The packets of the grammar. -/
def IsPacket (p : List Char) : Prop := ∃ fields, FieldsOk fields ∧ p = packet fields

/-! ## Reading more than the grammar has -/

/-- The fields as the C strings of `tmp`, nine at most, the first being the id. -/
def cFields (text : List Char) : List (List Char) :=
  ((text.takeWhile (· ≠ nul)).splitOn ';').take nitems

/-- `strtoll` reads all of the field, and its number is one for place `k`. -/
def Reads (k : Nat) (t : List Char) : Prop :=
  (strtoll t).2 = [] ∧ (k = 2 → (strtoll t).1 ≠ 0) ∧ (6 ≤ k → 0 ≤ (strtoll t).1)

/-- A text with a number wherever the grammar has one, however it is written. -/
def Readable (text : List Char) : Prop :=
  (cFields text).head? = some packetId ∧
    ((cFields text).tail.length = 6 ∨ (cFields text).tail.length = 8) ∧
      ∀ k (hk : k < (cFields text).tail.length), Reads k (cFields text).tail[k]

/-- Written as in the grammar: no NUL byte, no tenth field, and every number a
decimal integer in 64-bit range. -/
def Written (text : List Char) : Prop :=
  nul ∉ text ∧ (text.splitOn ';').length ≤ nitems ∧ ∀ t ∈ (text.splitOn ';').tail, IsLong t

/-- A field that has begun at place `k`: nothing, a minus sign, or an integer in
range, in a coordinate not a negative one. -/
def FieldBegun (k : Nat) (t : List Char) : Prop :=
  t = [] ∨ t = ['-'] ∨ (IsLong t ∧ (6 ≤ k → 0 ≤ Decimal.value t))

/-- A beginning of the id, or the id, whole fields and one that has begun. -/
def Begun (text : List Char) : Prop :=
  match text.splitOn ';' with
  | [] => False
  | id :: fields =>
      if fields = [] then id <+: packetId
      else
        id = packetId ∧ fields.length ≤ 8 ∧
          ∀ k (hk : k < fields.length),
            if k + 1 = fields.length then FieldBegun k fields[k] else FieldOk k fields[k]

/-- What the bytes behind `ESC [ ?` have to be for the function to keep to the
grammar: `text` is what stands before the first tilde. -/
def Regular (rest : List Char) : Prop :=
  let text := rest.takeWhile (· ≠ '~')
  if text.length = rest.length then rest.length ≤ tmpSize - 3 → Begun text
  else if text.length < tmpSize - 3 then Readable text → Written text
  else ¬ ∃ fields, FieldsOk fields ∧ text = packetText fields

end Newmux.Keys
