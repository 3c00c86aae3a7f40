import LineLedger.Text.Hex

set_option autoImplicit false

namespace LineLedger.Toml

def areDigits (isDigit : Char → Bool) : List Char → Bool
  | [] => false
  | [c] => isDigit c
  | c :: '_' :: rest => isDigit c && areDigits isDigit rest
  | c :: rest => isDigit c && areDigits isDigit rest

def dropSign : List Char → List Char
  | '+' :: rest => rest
  | '-' :: rest => rest
  | text => text

def digitsValue (base : Nat) (digits : List Char) : Nat :=
  digits.foldl (fun n c => base * n + ((Text.hexValue? c).getD 0)) 0

def valueOf (base : Nat) (digits : List Char) : Nat :=
  digitsValue base (digits.filter (· ≠ '_'))

def isWhole (digits : List Char) : Bool :=
  digits = ['0'] || (areDigits Char.isDigit digits && digits.head? ≠ some '0')

def integerBound : Nat := Nat.pow 2 63

def isOctal (c : Char) : Bool := '0' ≤ c && c ≤ '7'

def isBinary (c : Char) : Bool := c = '0' || c = '1'

def isInteger (text : List Char) : Bool :=
  match text with
  | '0' :: 'x' :: digits => areDigits Text.isHexDigit digits && valueOf 16 digits < integerBound
  | '0' :: 'o' :: digits => areDigits isOctal digits && valueOf 8 digits < integerBound
  | '0' :: 'b' :: digits => areDigits isBinary digits && valueOf 2 digits < integerBound
  | '-' :: digits => isWhole digits && valueOf 10 digits ≤ integerBound
  | text => isWhole (dropSign text) && valueOf 10 (dropSign text) < integerBound

-- Positive numbers from here on are infinite.
def floatBound : Nat := Nat.pow 2 1024 - Nat.pow 2 970

def isExponentLetter (c : Char) : Bool := c = 'e' || c = 'E'

def staysFinite (whole fraction exponent : List Char) : Bool :=
  let digits := (whole ++ fraction).filter (· ≠ '_')
  let places := (fraction.filter (· ≠ '_')).length
  let value := digitsValue 10 digits
  let scale := valueOf 10 (dropSign exponent)
  if value = 0 then true
  else if exponent.head? = some '-' then
    scale > digits.length || value < floatBound * Nat.pow 10 (scale + places)
  else
    scale ≤ 400 + places && value * Nat.pow 10 scale < floatBound * Nat.pow 10 places

def isFloat (text : List Char) : Bool :=
  let isNegative := text.head? = some '-'
  let magnitude := dropSign text
  if magnitude = "inf".toList || magnitude = "nan".toList then true
  else
    let mantissa := magnitude.takeWhile fun c => !isExponentLetter c
    let exponent := (magnitude.drop mantissa.length).drop 1
    let hasExponent := mantissa.length < magnitude.length
    let whole := mantissa.takeWhile (· ≠ '.')
    let fraction := (mantissa.drop whole.length).drop 1
    let hasFraction := whole.length < mantissa.length
    (hasExponent || hasFraction) && isWhole whole &&
      (!hasFraction || areDigits Char.isDigit fraction) &&
      (!hasExponent || areDigits Char.isDigit (dropSign exponent)) &&
      (isNegative || staysFinite whole fraction exponent)

def twoDigits? (a b : Char) : Option Nat :=
  if a.isDigit && b.isDigit then some (digitsValue 10 [a, b]) else none

def isLeapYear (year : Nat) : Bool := year % 4 = 0 && (year % 100 ≠ 0 || year % 400 = 0)

def daysIn (year month : Nat) : Nat :=
  if month = 2 then if isLeapYear year then 29 else 28
  else if [4, 6, 9, 11].contains month then 30
  else 31

def isDate : List Char → Bool
  | [a, b, c, d, '-', m, n, '-', x, y] =>
    match twoDigits? a b, twoDigits? c d, twoDigits? m n, twoDigits? x y with
    | some high, some low, some month, some day =>
      1 ≤ month && month ≤ 12 && 1 ≤ day && day ≤ daysIn (100 * high + low) month
    | _, _, _, _ => false
  | _ => false

def takeTime : List Char → Option (List Char × List Char)
  | a :: b :: ':' :: c :: d :: ':' :: e :: f :: rest =>
    match twoDigits? a b, twoDigits? c d, twoDigits? e f with
    | some hour, some minute, some second =>
      if hour ≤ 23 && minute ≤ 59 && second ≤ 60 then
        let time := [a, b, ':', c, d, ':', e, f]
        match rest with
        | '.' :: rest =>
          let digits := rest.takeWhile Char.isDigit
          if digits.isEmpty then none
          else some (time ++ '.' :: digits, rest.drop digits.length)
        | rest => some (time, rest)
      else none
    | _, _, _ => none
  | _ => none

def isOffset : List Char → Bool
  | ['Z'] => true
  | ['z'] => true
  | [sign, a, b, ':', c, d] =>
    (sign = '+' || sign = '-') &&
      match twoDigits? a b, twoDigits? c d with
      | some hours, some minutes => hours ≤ 23 && minutes ≤ 59
      | _, _ => false
  | _ => false

def isMoment (text : List Char) : Bool :=
  if isDate text then true
  else
    match takeTime text with
    | some (_, []) => true
    | _ =>
      isDate (text.take 10) &&
        match text.drop 10 with
        | separator :: rest =>
          (separator = 'T' || separator = 't' || separator = ' ') &&
            match takeTime rest with
            | some (_, []) => true
            | some (_, offset) => isOffset offset
            | none => false
        | [] => false

end LineLedger.Toml
