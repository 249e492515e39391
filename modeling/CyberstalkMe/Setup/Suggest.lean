import CyberstalkMe.Mapping.Mapper

/-! # Trying out a pattern

`SuggestPattern` quotes a title, and `TestPattern` runs a pattern over titles with the `regexp` package
that the agent's rules are compiled with.
-/
namespace CyberstalkMe.Setup

/-- `regexp.QuoteMeta`. -/
def quoteMeta (s : String) : String :=
  String.ofList (s.toList.flatMap fun c => if c ∈ "\\.+*?()|[]\x7b\x7d^$".toList then ['\\', c] else [c])

def suggestPattern (title : String) : String := "(?i)" ++ quoteMeta title

/-- The error is empty when the pattern is valid. -/
structure PatternTest where
  valid : Bool
  error : String
  matched : List Bool
  matchCount : ℕ
deriving DecidableEq, Repr

def testPattern (lib : Mapping.Library) (pat : String) (titles : List String) : PatternTest :=
  match lib.compile pat with
  | .error e => ⟨false, e, titles.map fun _ => false, 0⟩
  | .ok re => ⟨true, "", titles.map (lib.matchString re), titles.countP (lib.matchString re)⟩

end CyberstalkMe.Setup
