import TableModels.Toml.Value
import TableModels.Toml.Text

/-! # Numbers and moments in a settings file

Integers with an optional sign, or with base sixteen, eight or two, of 64 bits; numbers with a
fraction or an exponent; dates and times of the calendar. An underscore may stand between two
digits. -/

namespace TableModels.Toml

/-- The digits behind a digit, without the underscores between them, and the text behind them. -/
def laterDigits (accepts : Char → Bool) : List Char → List Char × List Char
  | [] => ([], [])
  | [c] => if accepts c then ([c], []) else ([], [c])
  | c :: d :: rest =>
      if accepts c then
        let (digits, later) := laterDigits accepts (d :: rest)
        (c :: digits, later)
      else if c = '_' ∧ accepts d then
        let (digits, later) := laterDigits accepts (d :: rest)
        (digits, later)
      else
        ([], c :: d :: rest)

/-- The digits at the head of a text, which begins with one, and the text behind them. -/
def digits? (accepts : Char → Bool) : List Char → Option (List Char × List Char)
  | [] => none
  | c :: rest => if accepts c then some (laterDigits accepts (c :: rest)) else none

/-- The number that digits of a base denote. -/
def digitsValue (base : Nat) (digits : List Char) : Nat :=
  digits.foldl (fun value digit => value * base + (hexValue? digit).getD 0) 0

/-- An integer that 64 bits hold. -/
def integer? (value : Int) : Option Value :=
  if Int64.minValue.toInt ≤ value ∧ value ≤ Int64.maxValue.toInt then some (.integer value)
  else none

/-- An integer of the given base behind its mark. -/
def basedInteger? (base : Nat) (text : List Char) : Option (Value × List Char) :=
  match digits? (fun c => (hexValue? c).any (· < base)) text with
  | none => none
  | some (digits, later) =>
      (integer? (digitsValue base digits)).map fun value => (value, later)

/-- The sign at the head of a text, as a factor, and the text behind it. -/
def signOf : List Char → Int × List Char
  | '+' :: rest => (1, rest)
  | '-' :: rest => (-1, rest)
  | text => (1, text)

/-- The exponent at the head of a text, if it begins with one, and the text behind it. -/
def exponent? : List Char → Option (Option Int × List Char)
  | c :: rest =>
      if c = 'e' ∨ c = 'E' then
        let (factor, text) := signOf rest
        (digits? Char.isDigit text).map fun (digits, later) =>
          (some (factor * digitsValue 10 digits), later)
      else
        some (none, c :: rest)
  | [] => some (none, [])

/-- The fraction at the head of a text, if it begins with one, and the text behind it. -/
def fraction? : List Char → Option (List Char × List Char)
  | '.' :: rest => digits? Char.isDigit rest
  | text => some ([], text)

/-- The least number that rounds to no finite number of 64 bits. -/
def floatBound : Nat := Nat.pow 2 1024 - Nat.pow 2 970

/-- The number with the given digits before and behind its point, times a power of ten. A number
that is too large is refused; one that is too large in the other direction counts as infinite. -/
def float? (factor : Int) (whole fraction : List Char) (exponent : Int) : Option Value :=
  let mantissa := factor * digitsValue 10 (whole ++ fraction)
  let places := (fraction.length : Int) - exponent
  if mantissa = 0 ∨ 0 ≤ places then
    some (.float mantissa places.toNat)
  else
    let power := Nat.pow 10 (min places.natAbs 400)
    let scaled := if 400 < places.natAbs then floatBound else mantissa.natAbs * power
    if scaled < floatBound then some (.float (factor * scaled) 0)
    else if mantissa < 0 then some .special
    else none

/-- The number at the head of a text. -/
def number? (text : List Char) : Option (Value × List Char) :=
  match text with
  | '0' :: 'x' :: rest => basedInteger? 16 rest
  | '0' :: 'o' :: rest => basedInteger? 8 rest
  | '0' :: 'b' :: rest => basedInteger? 2 rest
  | text =>
      let (factor, unsigned) := signOf text
      match unsigned with
      | 'i' :: 'n' :: 'f' :: rest | 'n' :: 'a' :: 'n' :: rest => some (.special, rest)
      | _ =>
          match digits? Char.isDigit unsigned with
          | none => none
          | some (whole, rest) =>
              if 1 < whole.length && whole.head? == some '0' then
                none
              else
                match fraction? rest with
                | none => none
                | some (fraction, rest) =>
                    match exponent? rest with
                    | none => none
                    | some (none, rest) =>
                        if fraction.isEmpty then
                          (integer? (factor * digitsValue 10 whole)).map fun value => (value, rest)
                        else
                          (float? factor whole fraction 0).map fun value => (value, rest)
                    | some (some exponent, rest) =>
                        (float? factor whole fraction exponent).map fun value => (value, rest)

/-- The number written with exactly `count` digits at the head of a text, provided that it lies
between two bounds, and the text behind it. -/
def fixedDigits? (count low high : Nat) (text : List Char) : Option (Nat × List Char) :=
  let digits := text.take count
  let value := digitsValue 10 digits
  if digits.length = count ∧ digits.all Char.isDigit ∧ low ≤ value ∧ value ≤ high then
    some (value, text.drop count)
  else
    none

/-- The number of days of a month. -/
def daysOf (year month : Nat) : Nat :=
  if month = 2 then
    if (year % 4 = 0 ∧ year % 100 ≠ 0) ∨ year % 400 = 0 then 29 else 28
  else if month = 4 ∨ month = 6 ∨ month = 9 ∨ month = 11 then 30
  else 31

/-- The text behind a character, if it begins with that character. -/
def afterChar? (c : Char) : List Char → Option (List Char)
  | [] => none
  | d :: rest => if c = d then some rest else none

/-- The text behind a date. -/
def afterDate? (text : List Char) : Option (List Char) := do
  let (year, text) ← fixedDigits? 4 0 9999 text
  let text ← afterChar? '-' text
  let (month, text) ← fixedDigits? 2 1 12 text
  let text ← afterChar? '-' text
  let (_, text) ← fixedDigits? 2 1 (daysOf year month) text
  return text

/-- The text behind a time. -/
def afterTime? (text : List Char) : Option (List Char) := do
  let (_, text) ← fixedDigits? 2 0 23 text
  let text ← afterChar? ':' text
  let (_, text) ← fixedDigits? 2 0 59 text
  let text ← afterChar? ':' text
  let (_, text) ← fixedDigits? 2 0 60 text
  match text with
  | '.' :: c :: rest => return if c.isDigit then rest.dropWhile Char.isDigit else text
  | text => return text

/-- The text behind a time zone, if it begins with one, and otherwise the text. -/
def skipZone (text : List Char) : List Char :=
  match text with
  | 'Z' :: rest | 'z' :: rest => rest
  | '+' :: rest | '-' :: rest =>
      let later? : Option (List Char) := do
        let (_, rest) ← fixedDigits? 2 0 23 rest
        let rest ← afterChar? ':' rest
        let (_, rest) ← fixedDigits? 2 0 59 rest
        return rest
      later?.getD text
  | text => text

/-- The text behind the date, the time, or both, at the head of a text. -/
def afterMoment? (text : List Char) : Option (List Char) :=
  match afterDate? text with
  | none => afterTime? text
  | some rest =>
      match rest with
      | c :: later =>
          if c = 'T' ∨ c = 't' ∨ c = ' ' then
            match afterTime? later with
            | some behind => some (skipZone behind)
            | none => some rest
          else
            some rest
      | [] => some []

/-- The moment at the head of a text. -/
def moment? (text : List Char) : Option (Value × List Char) :=
  (afterMoment? text).map fun rest =>
    (.moment (String.ofList (text.take (text.length - rest.length))), rest)

end TableModels.Toml
