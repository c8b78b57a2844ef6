/-!
Dates and times of TOML documents. They have no use of their own here, so reading one gives its text in
one fixed form: a `T` between date and time, and a fraction of at most nine digits without zeros at its
end.
-/
namespace PrototypeScan.Toml.Moment

/-- So many digits, and the number that they denote. -/
def digits? (n : Nat) (cs : List Char) : Option (Nat × List Char) :=
  let ds := cs.take n
  if ds.length = n && ds.all Char.isDigit then
    some (ds.foldl (fun v d => 10 * v + (d.toNat - '0'.toNat)) 0, cs.drop n)
  else none

def isLeap (year : Nat) : Bool := year % 4 = 0 && (year % 100 ≠ 0 || year % 400 = 0)

/-- The number of days of a month; none for months that there are not. -/
def daysOf (year month : Nat) : Nat :=
  if month = 2 then (if isLeap year then 29 else 28)
  else if [4, 6, 9, 11].contains month then 30
  else if 1 ≤ month && month ≤ 12 then 31
  else 0

/-- A number with two digits or more. -/
def two (n : Nat) : String := if n < 10 then "0" ++ toString n else toString n

def date? (cs : List Char) : Option (String × List Char) := do
  let (year, cs) ← digits? 4 cs
  let cs ← if cs.head? = some '-' then cs.tail? else none
  let (month, cs) ← digits? 2 cs
  let cs ← if cs.head? = some '-' then cs.tail? else none
  let (day, cs) ← digits? 2 cs
  if 1 ≤ day && day ≤ daysOf year month then
    let text := String.ofList ((toString (10000 + year)).toList.drop 1)
    some (text ++ "-" ++ two month ++ "-" ++ two day, cs)
  else none

/-- A fraction of a second in at most nine digits, without zeros at its end but for a single one. -/
def fractionText (ds : List Char) : String :=
  match ((ds.take 9).reverse.dropWhile (· = '0')).reverse with
  | [] => ".0"
  | kept => String.ofList ('.' :: kept)

/-- The seconds of a time; they may be missing. -/
def seconds? : List Char → Option (String × List Char)
  | ':' :: cs => do
    let (second, cs) ← digits? 2 cs
    if second > 60 then none
    else match cs with
      | '.' :: ds =>
        let fraction := ds.takeWhile Char.isDigit
        if fraction.isEmpty then none
        else some (":" ++ two second ++ fractionText fraction, ds.dropWhile Char.isDigit)
      | cs => some (":" ++ two second, cs)
  | cs => some ("", cs)

/-- Hours and minutes with a colon between them. -/
def hoursAndMinutes? (cs : List Char) : Option (String × List Char) := do
  let (hour, cs) ← digits? 2 cs
  let cs ← if cs.head? = some ':' then cs.tail? else none
  let (minute, cs) ← digits? 2 cs
  if hour ≤ 23 && minute ≤ 59 then some (two hour ++ ":" ++ two minute, cs) else none

def time? (cs : List Char) : Option (String × List Char) := do
  let (hm, cs) ← hoursAndMinutes? cs
  let (s, cs) ← seconds? cs
  return (hm ++ s, cs)

/-- The distance from universal time; it may be missing. -/
def offset? : List Char → Option (String × List Char)
  | [] => some ("", [])
  | 'Z' :: cs | 'z' :: cs => some ("Z", cs)
  | '+' :: cs => (hoursAndMinutes? cs).map fun (t, r) => ("+" ++ t, r)
  | '-' :: cs => (hoursAndMinutes? cs).map fun (t, r) =>
    ((if t = "00:00" then "+" else "-") ++ t, r)
  | _ => none

/-- The text of a date, a time, or both. -/
def read? (cs : List Char) : Option String :=
  match date? cs with
  | some (date, []) => some date
  | some (date, between :: cs) =>
    if between = 'T' || between = 't' || between = ' ' then do
      let (time, cs) ← time? cs
      let (offset, cs) ← offset? cs
      if cs.isEmpty then some (date ++ "T" ++ time ++ offset) else none
    else none
  | none => match time? cs with
    | some (time, []) => some time
    | _ => none

end PrototypeScan.Toml.Moment
