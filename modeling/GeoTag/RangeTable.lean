import GeoTag.Address.Literal
import GeoTag.FileSystem
import GeoTag.Lookup
import GeoTag.Text.Quoted

/-!
# Range tables

A range table is a text with one range of addresses a line: first address, last address, country
code, country, region and city between commas.  Blank lines and lines that start with a number sign
hold no data.  `RangeTable.parse` reads the rows, sorts them by family and first address and refuses
ranges that overlap; `RangeTable.find?` searches by halving.  `Backend.withFallback` asks a table
where another source has no answer.
-/

namespace GeoTag

/-- A range of words together with the place of its row. -/
structure Span (w : Nat) where
  /-- The first word of the range. -/
  first : BitVec w
  /-- The last word of the range. -/
  last : BitVec w
  /-- The place of the row among the rows of the table. -/
  row : Nat
deriving DecidableEq, Repr

namespace Span

variable {w : Nat}

/-- The word lies in the range. -/
def contains (span : Span w) (bits : BitVec w) : Bool :=
  span.first.toNat ≤ bits.toNat && bits.toNat ≤ span.last.toNat

/-- Sorts ranges by their first word. -/
def sort (spans : List (Span w)) : List (Span w) :=
  spans.mergeSort fun a b => a.first.toNat ≤ b.first.toNat

/-- Some range starts no later than the range before it ends. -/
def overlapping : List (Span w) → Bool
  | a :: b :: rest => decide (b.first.toNat ≤ a.last.toNat) || overlapping (b :: rest)
  | _ => false

/-- How many ranges of a sorted table start no later than a word, between the places `low` and
`high`. -/
def partitionPoint (spans : Array (Span w)) (bits : BitVec w) (low high : Nat) : Nat :=
  if low < high then
    let middle := low + (high - low) / 2
    match spans[middle]? with
    | none => low
    | some span =>
      if span.first.toNat ≤ bits.toNat then partitionPoint spans bits (middle + 1) high
      else partitionPoint spans bits low middle
  else low
termination_by high - low
decreasing_by all_goals omega

/-- The range of a sorted table that holds a word. -/
def search? (spans : Array (Span w)) (bits : BitVec w) : Option (Span w) :=
  match partitionPoint spans bits 0 spans.size with
  | 0 => none
  | n + 1 => spans[n]?.filter fun span => bits.toNat ≤ span.last.toNat

end Span

namespace RangeTable

/-- The names that a row gives to its range. -/
structure Names where
  /-- The code of the country. -/
  countryCode : String
  /-- The name of the country. -/
  country : String
  /-- The region. -/
  region : String
  /-- The city. -/
  city : String
deriving DecidableEq, Repr

/-- A location with the given names; a table knows neither coordinates nor time zones. -/
def Names.location (names : Names) : Location where
  latitude := 0
  longitude := 0
  countryCode := names.countryCode
  country := names.country
  city := names.city
  region := names.region
  timeZone := notAvailable

/-- What is wrong with a table. -/
inductive Flaw where
  /-- A row has too few or too many columns. -/
  | columns (found : Nat)
  /-- The first column is no address. -/
  | badStart (text : String)
  /-- The second column is no address. -/
  | badEnd (text : String)
  /-- The range ends before it starts, or in the other family. -/
  | inverted (first last : Address)
  /-- Two ranges of IPv4 addresses share an address. -/
  | overlap4
  /-- Two ranges of IPv6 addresses share an address. -/
  | overlap6
deriving DecidableEq, Repr

/-- The flaw in words. -/
def Flaw.message : Flaw → String
  | .columns found => "expected 6 columns, found " ++ toString found
  | .badStart text => "bad start address " ++ Text.quoted text
  | .badEnd text => "bad end address " ++ Text.quoted text
  | .inverted first last => "invalid range " ++ first.toText ++ " - " ++ last.toText
  | .overlap4 => "overlapping IPv4 ranges"
  | .overlap6 => "overlapping IPv6 ranges"

/-- A flaw and the number of its line; an overlap has the number zero. -/
structure Fault where
  /-- The number of the line. -/
  line : Nat
  /-- What is wrong with it. -/
  flaw : Flaw
deriving DecidableEq, Repr

/-- The range of a row. -/
inductive Range where
  /-- A range of IPv4 addresses. -/
  | v4 (first last : BitVec 32)
  /-- A range of IPv6 addresses. -/
  | v6 (first last : BitVec 128)
deriving DecidableEq, Repr

/-- The range from one address to another. -/
def Range.ofEnds? : Address → Address → Option Range
  | .v4 first, .v4 last => if first.toNat ≤ last.toNat then some (.v4 first last) else none
  | .v6 first, .v6 last => if first.toNat ≤ last.toNat then some (.v6 first last) else none
  | _, _ => none

/-- The address lies in the range. -/
def Range.contains : Range → Address → Bool
  | .v4 first last, .v4 bits => first.toNat ≤ bits.toNat && bits.toNat ≤ last.toNat
  | .v6 first last, .v6 bits => first.toNat ≤ bits.toNat && bits.toNat ≤ last.toNat
  | _, _ => false

/-- A row of a table. -/
structure Row where
  /-- The range of the row. -/
  range : Range
  /-- The names it gives. -/
  names : Names
deriving DecidableEq, Repr

/-- A column of names; an empty one becomes the placeholder. -/
def column (cs : List Char) : String := orNotAvailable (some (String.ofList cs))

/-- The row of a line that holds data. -/
def Row.parse (line : List Char) : Except Flaw Row :=
  match (Text.splitOn ',' line).map Text.trim with
  | [c₀, c₁, c₂, c₃, c₄, c₅] =>
    match Address.ofLiteral? c₀ with
    | none => .error (.badStart (String.ofList c₀))
    | some first =>
      match Address.ofLiteral? c₁ with
      | none => .error (.badEnd (String.ofList c₁))
      | some last =>
        match Range.ofEnds? first last with
        | none => .error (.inverted first last)
        | some range => .ok ⟨range, ⟨column c₂, column c₃, column c₄, column c₅⟩⟩
  | columns => .error (.columns columns.length)

/-- The line holds data: it is neither blank nor a comment. -/
def isData (line : List Char) : Bool := !line.isEmpty && line.head? ≠ some '#'

/-- The trimmed lines of a text that hold data, with their numbers from one on. -/
def dataLines (text : String) : List (Nat × List Char) :=
  let lines := (Text.splitOn '\n' text.toList).map Text.trim
  ((List.range' 1 lines.length).zip lines).filter fun l => isData l.2

/-- The rows of numbered lines, or the fault of the first line that has one. -/
def rows : List (Nat × List Char) → Except Fault (List Row)
  | [] => .ok []
  | (number, line) :: rest =>
    match Row.parse line with
    | .error flaw => .error ⟨number, flaw⟩
    | .ok row => (rows rest).map fun more => row :: more

/-- The ranges of IPv4 addresses among rows, each with the place of its row. -/
def spans4 (rows : List Row) : List (Span 32) :=
  rows.zipIdx.filterMap fun (row, i) =>
    match row.range with
    | .v4 first last => some ⟨first, last, i⟩
    | .v6 .. => none

/-- The ranges of IPv6 addresses among rows, each with the place of its row. -/
def spans6 (rows : List Row) : List (Span 128) :=
  rows.zipIdx.filterMap fun (row, i) =>
    match row.range with
    | .v4 .. => none
    | .v6 first last => some ⟨first, last, i⟩

end RangeTable

/-- Ranges of addresses, sorted, with the names of their rows. -/
structure RangeTable where
  /-- The name of the table. -/
  name : String
  /-- The ranges of IPv4 addresses, sorted. -/
  v4 : Array (Span 32)
  /-- The ranges of IPv6 addresses, sorted. -/
  v6 : Array (Span 128)
  /-- The names of the rows, in the order of the lines. -/
  names : Array RangeTable.Names

namespace RangeTable

/-- The table of rows without overlapping ranges. -/
def ofRows (name : String) (rows : List Row) : Except Flaw RangeTable :=
  let v4 := Span.sort (spans4 rows)
  let v6 := Span.sort (spans6 rows)
  if Span.overlapping v4 then .error .overlap4
  else if Span.overlapping v6 then .error .overlap6
  else .ok ⟨name, v4.toArray, v6.toArray, (rows.map Row.names).toArray⟩

/-- The name of the table of a file. -/
def nameOf (path : String) : String := "range-table:" ++ Path.label path

/-- The table of a text; the path only gives the name. -/
def parse (path text : String) : Except Fault RangeTable :=
  match rows (dataLines text) with
  | .error fault => .error fault
  | .ok rows =>
    match ofRows (nameOf path) rows with
    | .error flaw => .error ⟨0, flaw⟩
    | .ok table => .ok table

/-- Why a table could not be loaded. -/
inductive LoadFault where
  /-- The file could not be read. -/
  | io (fault : IoFault)
  /-- The text is no table. -/
  | content (path : String) (fault : Fault)
deriving DecidableEq

/-- The fault of a table in words, with its place. -/
def Fault.message (path : String) (fault : Fault) : String :=
  path ++ ":" ++ toString fault.line ++ ": invalid range table entry: " ++ fault.flaw.message

/-- The fault in words. -/
def LoadFault.message : LoadFault → String
  | .io fault => fault.message
  | .content path fault => fault.message path

/-- The table in a file. -/
def load (fs : FileSystem) (path : String) : Except LoadFault RangeTable :=
  match fs.readText path with
  | .error fault => .error (.io fault)
  | .ok text =>
    match parse path text with
    | .error fault => .error (.content path fault)
    | .ok table => .ok table

/-- The number of rows. -/
def size (table : RangeTable) : Nat := table.names.size

/-- The table has no row. -/
def isEmpty (table : RangeTable) : Bool := table.names.isEmpty

/-- The place of the row whose range holds an address. -/
def row? (table : RangeTable) : Address → Option Nat
  | .v4 bits => (Span.search? table.v4 bits).map Span.row
  | .v6 bits => (Span.search? table.v6 bits).map Span.row

/-- The location that the table gives to an address. -/
def find? (table : RangeTable) (address : Address) : Option Location :=
  (table.row? address).bind fun i => table.names[i]?.map Names.location

/-- The table as a source of locations; it never fails. -/
def backend (table : RangeTable) : Backend Location where
  name := table.name
  lookup address := .ok (table.find? address)

end RangeTable

/-- Asks a table where another source, if there is one, has no answer or fails. -/
def Backend.withFallback (primary : Option (Backend Location)) (table : RangeTable) :
    Backend Location where
  name :=
    match primary with
    | some backend => backend.name ++ "+" ++ table.name
    | none => table.name
  lookup address :=
    match primary with
    | none => .ok (table.find? address)
    | some backend =>
      match backend.lookup address with
      | .ok (some found) => .ok (some found)
      | _ => .ok (table.find? address)

end GeoTag
