import Prognosis.Text.Lowercase
import Prognosis.Text.Word

/-! What locators of data say: which indicator or dataset they name, and for which country. The
two public sources read a locator each in its own way.
-/

namespace Prognosis

open Text

namespace Locator

/-- A character of a code in which letters of either case count. -/
def isCodeChar (marks : List Char) (c : Char) : Bool :=
  isLatinLetter c || c.isDigit || marks.contains c

/-- The value of the query field that names a place, at the place where the field begins. -/
def placeField? : List Char → Option (List Char)
  | c :: rest =>
      if c == '?' || c == '&' then
        (after? sameLetter "geo=".toList rest).bind (run? (isCodeChar ['_']))
      else none
  | [] => none

/-- The place that the query of a locator names. -/
def place? (locator : String) : Option (List Char) :=
  first? placeField? locator.toList

/-- A code in capitals. -/
def capitals (code : List Char) : String :=
  String.ofList (code.map latinCapital)

end Locator

namespace WorldBank

open Locator

/-- The source serves the locator. -/
def handles (locator : String) : Bool :=
  contains "worldbank.org" locator.toList

/-- The indicator that a locator names. -/
def indicator? (locator : String) : Option String :=
  (runAfter? sameLetter "indicator/" (isCodeChar ['.', '_']) locator.toList).map String.ofList

/-- The code of a country on its own between slashes, at the place where it is announced. -/
def countrySegment? (text : List Char) : Option (List Char) :=
  (after? sameLetter "country/".toList text).bind fun rest =>
    let code := rest.takeWhile isLatinLetter
    if (code.length == 2 || code.length == 3) && (rest.drop code.length).head? == some '/' then
      some code
    else none

/-- Codes of countries under which the source files what other codes mean. -/
def countryCodes : List (String × String) := [
  ("IT", "ITA"), ("DE", "DEU"), ("FR", "FRA"), ("ES", "ESP"), ("PL", "POL"), ("EU", "EUU"),
  ("EU27", "EUU"), ("SSF", "SSF"), ("WLD", "WLD")
]

/-- The country that a locator is about: the one on its path, else the one in its query, else
Italy.
-/
def country (locator : String) : String :=
  match first? countrySegment? locator.toList with
  | some code => capitals code
  | none =>
      match place? locator with
      | some code => (countryCodes.lookup (capitals code)).getD (capitals code)
      | none => "ITA"

end WorldBank

namespace Eurostat

open Locator

/-- The source serves the locator. -/
def handles (locator : String) : Bool :=
  contains "eurostat" locator.toList || contains "ec.europa.eu" locator.toList

/-- The name after a mark. -/
def nameAfter? (mark : String) (text : List Char) : Option (List Char) :=
  runAfter? (· == ·) mark isWordChar text

/-- The name that a view further down the same line shows, at the place where the source is
named.
-/
def nameOfView? (text : List Char) : Option (List Char) :=
  (after? (· == ·) "eurostat".toList text).bind fun rest =>
    nameAfter? "/view/" (rest.takeWhile (· != '\n'))

/-- The dataset that a locator names. -/
def dataset? (locator : String) : Option String :=
  let text := locator.toList
  let found :=
    (nameAfter? "databrowser/view/" text).or <|
    (nameAfter? "/data/" text).or <|
    (nameAfter? "eurostat/api/" text).or <|
    first? nameOfView? text
  found.map String.ofList

/-- Codes of places under which the source files what other names mean. -/
def placeCodes : List (String × String) := [
  ("italy", "IT"), ("france", "FR"), ("germany", "DE"), ("spain", "ES"), ("poland", "PL"),
  ("eu27", "EU27_2020"), ("eu28", "EU28"), ("eu", "EU27_2020")
]

/-- The code of a named place. -/
def placeCode? (name : List Char) : Option String :=
  placeCodes.lookup (String.ofList (name.map Char.toLower))

/-- A short segment of a path and the count of characters that it takes up, with the mark that
ends it; a line break that ends the text ends the segment too.
-/
def segment? : List Char → Option (List Char × Nat)
  | c :: rest =>
      let segment := rest.takeWhile (isCodeChar [])
      if (c == '/' || c == '%') && 2 ≤ segment.length && segment.length ≤ 5 then
        match rest.drop segment.length with
        | [] => some (segment, segment.length + 1)
        | ['\n'] => some (segment, segment.length + 1)
        | mark :: _ =>
            if mark == '/' || mark == '?' || mark == '#' then
              some (segment, segment.length + 2)
            else none
      else none
  | [] => none

/-- The short segments of a path that do not share a mark, after as many characters as are
taken up already.
-/
def segments (taken : Nat) : List Char → List (List Char)
  | [] => []
  | c :: rest =>
      match taken with
      | taken + 1 => segments taken rest
      | 0 =>
          match segment? (c :: rest) with
          | some (segment, length) => segment :: segments (length - 1) rest
          | none => segments 0 rest

/-- The place that a locator is about: the one in its query, else the first segment that names
one, else Italy.
-/
def place (locator : String) : String :=
  match Locator.place? locator with
  | some code => (placeCode? code).getD (capitals code)
  | none => ((segments 0 locator.toList).findSome? placeCode?).getD "IT"

end Eurostat

end Prognosis
