import AmountPad.Binary64
import AmountPad.Toml.Quoted
import AmountPad.Toml.Value

/-!
# Bare values of a TOML document

Booleans, numbers and times are written without quotes.  They are read as the
longest run of the characters that can stand in them, and the run as a whole has
to be one of them.

An integer may take up to 128 bits, and a number with a fraction or an exponent
must not be too large for a double.
-/

namespace AmountPad.Toml

/-- The characters of bare values. -/
def isBareChar (c : Char) : Bool :=
  c.isAlphanum || c = '+' || c = '-' || c = '.' || c = '_' || c = ':'

/-! ## Digits -/

/-- Takes out the underscores that group digits.  Each one stands between two
digits. -/
def ungroup? (isDigit : Char → Bool) (afterDigit : Bool) : Text → Option Text
  | [] => if afterDigit then some [] else none
  | c :: rest =>
      if c = '_' then if afterDigit then ungroup? isDigit false rest else none
      else if isDigit c then (ungroup? isDigit true rest).map (c :: ·)
      else none

/-- The digits of a number in base ten: at least one, and no zero in front of
others. -/
def wholeDigits? (text : Text) : Option Text :=
  match ungroup? Char.isDigit false text with
  | some ('0' :: _ :: _) => none
  | digits => digits

/-- The digits of a fraction or an exponent, where zeros may stand in front. -/
def looseDigits? (text : Text) : Option Text :=
  ungroup? Char.isDigit false text

/-- A sign, if there is one, and what follows it. -/
def cutSign : Text → Bool × Text
  | '-' :: rest => (true, rest)
  | '+' :: rest => (false, rest)
  | text => (false, text)

/-! ## Integers -/

/-- The number of a run of digits in a base up to sixteen. -/
def numberIn? (base : Nat) (text : Text) : Option Nat :=
  let isDigit := fun c => (hexValue? c).any (· < base)
  (ungroup? isDigit false text).map fun digits =>
    digits.foldl (fun number c => base * number + (hexValue? c).getD 0) 0

/-- An integer in base ten with a sign, or without one in base two, eight or
sixteen. -/
def integer? : Text → Option Int
  | '0' :: 'x' :: digits => (numberIn? 16 digits).map Int.ofNat
  | '0' :: 'o' :: digits => (numberIn? 8 digits).map Int.ofNat
  | '0' :: 'b' :: digits => (numberIn? 2 digits).map Int.ofNat
  | text =>
      let (isNegative, digits) := cutSign text
      (wholeDigits? digits).map fun digits =>
        let number := Int.ofNat (Nat.ofDigitChars 10 digits 0)
        if isNegative then -number else number

/-- Whether an integer fits into 128 bits, signed or unsigned. -/
def fitsInteger (number : Int) : Bool :=
  -0x80000000000000000000000000000000 ≤ number &&
    number ≤ 0xFFFFFFFFFFFFFFFFFFFFFFFFFFFFFFFF

/-! ## Numbers with a fraction or an exponent -/

/-- Whether `digits * 10 ^ exponent` is nearest to a finite double.  Powers of
ten beyond the range of doubles are not computed. -/
def fitsReal (digits : Text) (exponent : Int) : Bool :=
  let significant := digits.dropWhile (· = '0')
  let number := Nat.ofDigitChars 10 significant 0
  let top := Int.ofNat significant.length + exponent
  if number = 0 || top ≤ 308 then true
  else if 310 < top then false
  else
    (Binary64.nearest? (number * Nat.pow 10 exponent.toNat)
      (Nat.pow 10 (-exponent).toNat)).isSome

/-- Whether a text is a number with a fraction, an exponent or both, or one of
the names of infinity and of what is not a number. -/
def isReal (text : Text) : Bool :=
  let unsigned := (cutSign text).2
  let mantissa := unsigned.takeWhile fun c => c ≠ 'e' && c ≠ 'E'
  let scale := unsigned.drop mantissa.length
  let whole := mantissa.takeWhile (· ≠ '.')
  let fraction := mantissa.drop whole.length
  let fractionDigits :=
    match fraction with
    | [] => some []
    | _ :: digits => looseDigits? digits
  let exponent :=
    match scale with
    | [] => some 0
    | _ :: power =>
        let (isNegative, digits) := cutSign power
        (looseDigits? digits).map fun digits =>
          let number := Int.ofNat (Nat.ofDigitChars 10 digits 0)
          if isNegative then -number else number
  if unsigned = "inf".toList || unsigned = "nan".toList then true
  else if fraction = [] && scale = [] then false
  else
    match wholeDigits? whole, fractionDigits, exponent with
    | some whole, some fraction, some exponent =>
        fitsReal (whole ++ fraction) (exponent - Int.ofNat fraction.length)
    | _, _, _ => false

/-! ## Times -/

/-- The number of two digits. -/
def twoDigits? : Char → Char → Option Nat
  | tens, ones =>
      if tens.isDigit && ones.isDigit then
        some (Nat.ofDigitChars 10 [tens, ones] 0)
      else none

/-- The number of days of a month. -/
def daysOf (year month : Nat) : Nat :=
  if month = 2 then
    if year % 4 = 0 && (year % 100 ≠ 0 || year % 400 = 0) then 29 else 28
  else if month = 4 || month = 6 || month = 9 || month = 11 then 30
  else 31

/-- What follows a date. -/
def afterDate? : Text → Option Text
  | y1 :: y2 :: y3 :: y4 :: '-' :: m1 :: m2 :: '-' :: d1 :: d2 :: rest =>
      match twoDigits? y1 y2, twoDigits? y3 y4, twoDigits? m1 m2,
        twoDigits? d1 d2 with
      | some century, some year, some month, some day =>
          if 1 ≤ month && month ≤ 12 && 1 ≤ day &&
              day ≤ daysOf (100 * century + year) month then
            some rest
          else none
      | _, _, _, _ => none
  | _ => none

/-- What follows a fraction of a second, if there is one. -/
def afterFraction? : Text → Option Text
  | '.' :: digits =>
      if digits.head?.any Char.isDigit then some (digits.dropWhile Char.isDigit)
      else none
  | text => some text

/-- What follows the seconds of a time and their fraction, if there are any. -/
def afterSeconds? : Text → Option Text
  | ':' :: s1 :: s2 :: rest =>
      if (twoDigits? s1 s2).any (· ≤ 60) then afterFraction? rest else none
  | ':' :: _ => none
  | text => some text

/-- What follows a time of day.  Its seconds may be left out. -/
def afterTime? : Text → Option Text
  | h1 :: h2 :: ':' :: m1 :: m2 :: rest =>
      if (twoDigits? h1 h2).any (· ≤ 23) && (twoDigits? m1 m2).any (· ≤ 59) then
        afterSeconds? rest
      else none
  | _ => none

/-- Whether a text is an offset from universal time. -/
def isOffset : Text → Bool
  | ['Z'] => true
  | ['z'] => true
  | [sign, h1, h2, ':', m1, m2] =>
      (sign = '+' || sign = '-') && (twoDigits? h1 h2).any (· ≤ 23) &&
        (twoDigits? m1 m2).any (· ≤ 59)
  | _ => false

/-- Whether a text is a date, a time, or a date and a time with or without an
offset. -/
def isMoment (text : Text) : Bool :=
  match afterDate? text with
  | none => afterTime? text = some []
  | some [] => true
  | some (c :: rest) =>
      (c = 'T' || c = 't' || c = ' ') &&
        (afterTime? rest).any fun offset => offset = [] || isOffset offset

/-! ## All bare values -/

/-- The value of a run of bare characters. -/
def ofBare? (run : Text) : Option Value :=
  if run = "true".toList then some (.boolean true)
  else if run = "false".toList then some (.boolean false)
  else
    match integer? run with
    | some number => if fitsInteger number then some (.integer number) else none
    | none =>
        if isReal run then some .real
        else if isMoment run then some .moment
        else none

/-- Whether a time follows after a blank.  Only behind a date the blank is part
of the value. -/
def startsTime : Text → Bool
  | ' ' :: h1 :: h2 :: ':' :: _ => (twoDigits? h1 h2).isSome
  | _ => false

/-- Reads a bare value. -/
def bare? (text : Text) : Option (Value × Text) :=
  let run := text.takeWhile isBareChar
  let rest := text.dropWhile isBareChar
  if afterDate? run = some [] && startsTime rest then
    let time := (rest.drop 1).takeWhile isBareChar
    (ofBare? (run ++ ' ' :: time)).map (·, (rest.drop 1).dropWhile isBareChar)
  else (ofBare? run).map (·, rest)

example :
    ["+1_000", "0x_1", "007", "-0", "1_", "0b1012"].map
        (fun text => integer? text.toList) =
      [some 1000, none, none, some 0, none, none] := by
  decide

example :
    ["1.5", "6.26e-34", "1e400", "1.", ".5", "-inf", "1e0_6", "3"].map
        (fun text => isReal text.toList) =
      [true, true, false, false, false, true, true, false] := by
  decide +kernel

example :
    ["1979-05-27T07:32Z", "1979-02-29", "07:32:00.5", "07:32.5",
          "1979-05-27 07:32:60-07:00"].map
        (fun text => isMoment text.toList) =
      [true, false, true, false, true] := by
  decide +kernel

end AmountPad.Toml
