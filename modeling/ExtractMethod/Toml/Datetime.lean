import ExtractMethod.Toml.Text

namespace ExtractMethod.Toml

structure Date where
  year : Nat
  month : Nat
  day : Nat
deriving DecidableEq

structure Time where
  hour : Nat
  minute : Nat
  second : Nat
  nanosecond : Nat
deriving DecidableEq

/-- The distance of a local time from universal time. -/
inductive Offset where
  | universal
  | minutes (isWest : Bool) (count : Nat)
deriving DecidableEq

inductive Datetime where
  | date (date : Date)
  | time (time : Time)
  | both (date : Date) (time : Time) (offset : Option Offset)
deriving DecidableEq

/-- The days of a month, by the rule of leap years. -/
def daysIn (year month : Nat) : Nat :=
  if month = 2 then
    if year % 4 = 0 && (year % 100 ≠ 0 || year % 400 = 0) then 29 else 28
  else if month = 4 || month = 6 || month = 9 || month = 11 then 30
  else 31

/-- As many decimal digits as given, as a number. -/
def fixedDigits : Nat → Scan Nat
  | 0 => pure 0
  | count + 1 => do
    let value := digitValue (← Scan.oneOf Char.isDigit)
    pure (value * Nat.pow 10 count + (← fixedDigits count))

/-- Two digits within bounds. -/
def twoDigits (least greatest : Nat) : Scan Nat := do
  let n ← fixedDigits 2
  guard (least ≤ n && n ≤ greatest)
  pure n

def date : Scan Date := do
  let year ← fixedDigits 4
  Scan.char '-'
  let month ← twoDigits 1 12
  Scan.char '-'
  let day ← twoDigits 1 (daysIn year month)
  pure ⟨year, month, day⟩

/-- Digits after the point of the seconds. Those after the ninth are dropped. -/
def secondFraction : Scan Nat := do
  Scan.char '.'
  let found := (← Scan.spanSome Char.isDigit).take 9
  pure (numeral 10 found * Nat.pow 10 (9 - found.length))

def time : Scan Time := do
  let hour ← twoDigits 0 23
  Scan.char ':'
  let minute ← twoDigits 0 59
  Scan.char ':'
  let second ← twoDigits 0 60
  pure ⟨hour, minute, second, (← Scan.maybe secondFraction).getD 0⟩

def offset : Scan Offset :=
  (do
    let _ ← Scan.oneOf fun c => c = 'Z' || c = 'z'
    pure .universal) <|>
  (do
    let side ← Scan.oneOf fun c => c = '+' || c = '-'
    let hours ← twoDigits 0 23
    Scan.char ':'
    pure (.minutes (side = '-') (hours * 60 + (← twoDigits 0 59))))

def dateAndTime : Scan Datetime := do
  let date ← date
  let _ ← Scan.oneOf fun c => c = 'T' || c = 't' || c = ' '
  let time ← time
  pure (.both date time (← Scan.maybe offset))

def datetime : Scan Datetime := dateAndTime <|> .date <$> date <|> .time <$> time

/-- The datetime that a whole string tells. -/
def Datetime.ofText? (s : String) : Option Datetime :=
  (do let found ← datetime; Scan.atEnd; pure found).run' s.toList

/-- A number with zeros in front. -/
def padded (width n : Nat) : String :=
  let found := Nat.toDigits 10 n
  String.ofList (List.replicate (width - found.length) '0' ++ found)

namespace Datetime

def renderDate (d : Date) : String := s!"{padded 4 d.year}-{padded 2 d.month}-{padded 2 d.day}"

/-- The digits of a fraction of a second after the point, without zeros at the end. -/
def renderNanosecond (n : Nat) : String :=
  if n = 0 then ""
  else "." ++ String.ofList (((padded 9 n).toList.reverse.dropWhile (· = '0')).reverse)

def renderTime (t : Time) : String :=
  s!"{padded 2 t.hour}:{padded 2 t.minute}:{padded 2 t.second}" ++ renderNanosecond t.nanosecond

def renderOffset : Offset → String
  | .universal => "Z"
  | .minutes isWest count =>
    (if isWest && count ≠ 0 then "-" else "+") ++
      s!"{padded 2 (count / 60)}:{padded 2 (count % 60)}"

/-- The canonical form. -/
def render : Datetime → String
  | .date d => renderDate d
  | .time t => renderTime t
  | .both d t zone => renderDate d ++ "T" ++ renderTime t ++ (zone.map renderOffset).getD ""

end Datetime

end ExtractMethod.Toml
