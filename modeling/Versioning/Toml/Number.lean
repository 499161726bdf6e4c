import Versioning.Toml.Value
import Versioning.Toml.Text

/-!
# Numbers, dates and times of a document

A number is a sign and digits, which underscores may separate one by one. Whole
numbers are decimal without superfluous zeros, or hexadecimal, octal or binary
after a mark and then without a sign; they have to fit into a signed 64-bit
word. A number with a fraction or an exponent is a binary floating-point number.

A text that begins with a digit can be a date, a time, or a number, and is tried as
such in this order; a reader answers `none` when the text is not of its kind at all.
-/

namespace Versioning.Toml

/-- A piece of a kind, if the text begins with one. -/
abbrev Attempt (α : Type) := Option (α × List Char)

/-! ## Digits -/

/-- The digits that go on after the first one: an underscore has to stand between two digits. -/
def moreDigits (isDigit : Char → Bool) : List Char → List Char × List Char
  | [] => ([], [])
  | ['_'] => ([], ['_'])
  | '_' :: c :: rest =>
    if isDigit c then
      let (digits, rest) := moreDigits isDigit rest
      (c :: digits, rest)
    else ([], '_' :: c :: rest)
  | c :: rest =>
    if isDigit c then
      let (digits, rest) := moreDigits isDigit rest
      (c :: digits, rest)
    else ([], c :: rest)

/-- One or more digits. -/
def someDigits (isDigit : Char → Bool) : List Char → Attempt (List Char)
  | c :: rest =>
    if isDigit c then
      let (digits, rest) := moreDigits isDigit rest
      some (c :: digits, rest)
    else none
  | [] => none

/-- The digits of a decimal whole number: a zero stands alone. -/
def wholeDigits : List Char → Attempt (List Char)
  | '0' :: rest => some (['0'], rest)
  | text => someDigits Char.isDigit text

/-- A sign, if there is one, and whether it is a minus. -/
def sign : List Char → Bool × List Char
  | '-' :: rest => (true, rest)
  | '+' :: rest => (false, rest)
  | text => (false, text)

/-- Whether a character is a digit to a base of at most sixteen. -/
def isDigitOf (base : Nat) (c : Char) : Bool :=
  match Text.hexValue? c with
  | some value => value < base
  | none => false

/-- The value of some digits to a base. -/
def valueOf (base : Nat) (digits : List Char) : Nat :=
  digits.foldl (fun n c => base * n + (Text.hexValue? c).getD 0) 0

/-! ## Numbers -/

/-- A whole number that fits into a signed 64-bit word. -/
def fitting (n : Int) (rest : List Char) : Step Value :=
  if -Int.pow 2 63 ≤ n && n < Int.pow 2 63 then .ok (.integer n, rest) else .error .number

/-- A whole number after the mark of its base. -/
def basedInteger (base : Nat) (text : List Char) : Step Value :=
  match someDigits (isDigitOf base) text with
  | some (digits, rest) => fitting (valueOf base digits) rest
  | none => .error .number

/-- A whole number. -/
def integer : List Char → Step Value
  | '0' :: 'x' :: rest => basedInteger 16 rest
  | '0' :: 'o' :: rest => basedInteger 8 rest
  | '0' :: 'b' :: rest => basedInteger 2 rest
  | text =>
    let (negative, rest) := sign text
    match wholeDigits rest with
    | some (digits, rest) =>
      let n : Int := valueOf 10 digits
      fitting (if negative then -n else n) rest
    | none => .error .number

/-- The digits of a fraction, after its point. -/
def fraction? : List Char → Option (Step (List Char))
  | '.' :: rest =>
    match someDigits Char.isDigit rest with
    | some (digits, rest) => some (.ok (digits, rest))
    | none => some (.error .number)
  | _ => none

/-- The exponent of a number, after its mark. -/
def exponent? : List Char → Option (Step Int)
  | c :: rest =>
    if c = 'e' || c = 'E' then
      let (negative, rest) := sign rest
      match someDigits Char.isDigit rest with
      | some (digits, rest) =>
        let n : Int := valueOf 10 digits
        some (.ok (if negative then -n else n, rest))
      | none => some (.error .number)
    else none
  | [] => none

/-- The floating-point number with the given parts. One that is too large above zero is refused. -/
def floatOf (negative : Bool) (whole fraction : List Char) (exponent : Int) (rest : List Char) :
    Step Value :=
  let digits := valueOf 10 (whole ++ fraction)
  match Binary64.ofDecimal negative digits (exponent - fraction.length) with
  | .infinite false => .error .number
  | x => .ok (.float x, rest)

/-- A number with a fraction or an exponent. -/
def decimalFloat? (text : List Char) : Option (Step Value) :=
  let (negative, rest) := sign text
  match wholeDigits rest with
  | none => none
  | some (whole, rest) =>
    match fraction? rest with
    | some (.error fault) => some (.error fault)
    | some (.ok (fraction, rest)) =>
      match exponent? rest with
      | some (.error fault) => some (.error fault)
      | some (.ok (exponent, rest)) => some (floatOf negative whole fraction exponent rest)
      | none => some (floatOf negative whole fraction 0 rest)
    | none =>
      match exponent? rest with
      | some (.error fault) => some (.error fault)
      | some (.ok (exponent, rest)) => some (floatOf negative whole [] exponent rest)
      | none => none

/-- The infinities and the undefined number, by name. -/
def namedFloat? (text : List Char) : Attempt Value :=
  match sign text with
  | (negative, 'i' :: 'n' :: 'f' :: rest) => some (.float (.infinite negative), rest)
  | (_, 'n' :: 'a' :: 'n' :: rest) => some (.float .undefined, rest)
  | _ => none

/-! ## Dates and times -/

/-- A number of exactly so many digits. -/
def fixedDigits (count : Nat) (text : List Char) : Attempt Nat :=
  let digits := text.take count
  if digits.length = count && digits.all Char.isDigit then
    some (valueOf 10 digits, text.drop count)
  else none

/-- The number of days of a month. -/
def daysInMonth (year month : Nat) : Nat :=
  if month = 2 then
    if year % 4 = 0 && (year % 100 != 0 || year % 400 = 0) then 29 else 28
  else if month = 4 || month = 6 || month = 9 || month = 11 then 30
  else 31

/-- A date. Once a year and a hyphen were read, nothing else will do. -/
def date? (text : List Char) : Option (Step Date) :=
  match fixedDigits 4 text with
  | some (year, '-' :: rest) =>
    match fixedDigits 2 rest with
    | some (month, '-' :: rest) =>
      match fixedDigits 2 rest with
      | some (day, rest) =>
        if 1 ≤ month && month ≤ 12 && 1 ≤ day && day ≤ daysInMonth year month then
          some (.ok (⟨year, month, day⟩, rest))
        else some (.error .datetime)
      | none => some (.error .datetime)
    | _ => some (.error .datetime)
  | _ => none

/-- The nanoseconds after a point: nine digits count, and more may follow. -/
def nanoseconds : List Char → Step Nat
  | '.' :: rest =>
    let digits := rest.takeWhile Char.isDigit
    if digits.isEmpty then .error .datetime
    else
      let counted := digits.take 9
      .ok (valueOf 10 counted * Nat.pow 10 (9 - counted.length), rest.drop digits.length)
  | text => .ok (0, text)

/-- A time of day. Once an hour and a colon were read, nothing else will do. -/
def time? (text : List Char) : Option (Step Time) :=
  match fixedDigits 2 text with
  | some (hour, ':' :: rest) =>
    if 23 < hour then none
    else
      match fixedDigits 2 rest with
      | some (minute, ':' :: rest) =>
        match fixedDigits 2 rest with
        | some (second, rest) =>
          if 59 < minute || 60 < second then some (.error .datetime)
          else some ((nanoseconds rest).map fun (n, rest) => (⟨hour, minute, second, n⟩, rest))
        | none => some (.error .datetime)
      | _ => some (.error .datetime)
  | _ => none

/-- An offset from universal time, if there is one. -/
def offset : List Char → Step (Option Offset)
  | 'Z' :: rest => .ok (some .universal, rest)
  | 'z' :: rest => .ok (some .universal, rest)
  | text =>
    match sign text with
    | (negative, rest) =>
      if rest.length = text.length then .ok (none, text)
      else
        match fixedDigits 2 rest with
        | some (hour, ':' :: rest) =>
          match fixedDigits 2 rest with
          | some (minute, rest) =>
            if 23 < hour || 59 < minute then .error .datetime
            else
              let count : Int := 60 * hour + minute
              .ok (some (.minutes (if negative then -count else count)), rest)
          | none => .error .datetime
        | _ => .error .datetime

/-- What follows a date: a time after a delimiter, and its offset. -/
def afterDate (d : Date) (text : List Char) : Step Datetime :=
  match text with
  | c :: rest =>
    if c = 'T' || c = 't' || c = ' ' then
      match time? rest with
      | some (.ok (t, rest)) => (offset rest).map fun (o, rest) => (.dateTime d t o, rest)
      | some (.error fault) => .error fault
      | none => .ok (.date d, text)
    else .ok (.date d, text)
  | [] => .ok (.date d, text)

/-- A date, a time, or both. -/
def datetime? (text : List Char) : Option (Step Datetime) :=
  match date? text with
  | some (.ok (d, rest)) => some (afterDate d rest)
  | some (.error fault) => some (.error fault)
  | none => (time? text).map fun step => step.map fun (t, rest) => (.time t, rest)

/-- A value that begins with a sign or a digit. -/
def numberOrDate (text : List Char) : Step Value :=
  match datetime? text with
  | some step => step.map fun (t, rest) => (.datetime t, rest)
  | none =>
    match decimalFloat? text with
    | some step => step
    | none =>
      match namedFloat? text with
      | some step => .ok step
      | none => integer text

end Versioning.Toml
