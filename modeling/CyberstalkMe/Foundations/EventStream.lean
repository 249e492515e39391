import Mathlib.Data.List.Basic
import Mathlib.Tactic.SplitIfs

/-! # Event streams

A `text/event-stream` as an event source reads it, character by character: a line is a field
of the event, and an empty line ends the event.
-/
namespace CyberstalkMe.Foundations.EventStream

structure Message where
  event : List Char
  data : List Char
deriving DecidableEq, Repr

/-- The line so far, and the fields of the event so far. A newline that follows a carriage return
belongs to it. -/
structure Reader where
  line : List Char
  afterReturn : Bool
  event : List Char
  data : List Char
deriving DecidableEq, Repr

def Reader.start : Reader := ⟨[], false, [], []⟩

def defaultEvent : List Char := ['m', 'e', 's', 's', 'a', 'g', 'e']

/-- One field. The names `id` and `retry` matter to reconnecting only, others to nothing. -/
def Reader.field (r : Reader) (name value : List Char) : Reader :=
  if name = ['e', 'v', 'e', 'n', 't'] then { r with event := value }
  else if name = ['d', 'a', 't', 'a'] then { r with data := r.data ++ value ++ ['\n'] }
  else r

/-- What follows the colon, less one space. -/
def fieldValue : List Char → List Char
  | ' ' :: value => value
  | value => value

/-- The end of a line. An empty one hands out the event, if it has data. -/
def Reader.endLine (r : Reader) : Reader × Option Message :=
  if r.line = [] then
    ({ r with event := [], data := [] },
      if r.data = [] then none
      else some ⟨if r.event = [] then defaultEvent else r.event, r.data.dropLast⟩)
  else
    let name := r.line.takeWhile (· ≠ ':')
    ({ r.field name (fieldValue (r.line.drop (name.length + 1))) with line := [] }, none)

def Reader.feed (r : Reader) (c : Char) : Reader × Option Message :=
  if c = '\n' ∧ r.afterReturn then ({ r with afterReturn := false }, none)
  else if c = '\n' ∨ c = '\r' then ({ r.endLine.1 with afterReturn := c = '\r' }, r.endLine.2)
  else ({ r with line := r.line ++ [c], afterReturn := false }, none)

/-- The messages among some characters, and the reader after them. -/
def Reader.read : Reader → List Char → Reader × List Message
  | r, [] => (r, [])
  | r, c :: cs => (((r.feed c).1.read cs).1, (r.feed c).2.toList ++ ((r.feed c).1.read cs).2)

namespace Reader

@[simp] theorem read_nil (r : Reader) : r.read [] = (r, []) := rfl

theorem read_cons (r : Reader) (c : Char) (cs : List Char) :
    r.read (c :: cs) = (((r.feed c).1.read cs).1, (r.feed c).2.toList ++ ((r.feed c).1.read cs).2) := rfl

/-- It does not matter where the characters are cut. -/
theorem read_append (r : Reader) (as bs : List Char) :
    r.read (as ++ bs) = (((r.read as).1.read bs).1, (r.read as).2 ++ ((r.read as).1.read bs).2) := by
  induction as generalizing r with
  | nil => rfl
  | cons a as ih => rw [List.cons_append, read_cons, ih, read_cons, List.append_assoc]

/-! ### Frames -/

theorem read_line (r : Reader) {text : List Char} (hlf : '\n' ∉ text) (hcr : '\r' ∉ text) (hne : text ≠ []) :
    r.read text = ({ r with line := r.line ++ text, afterReturn := false }, []) := by
  have hchar (s : Reader) {c : Char} (hc : c ∈ text) :
      s.feed c = ({ s with line := s.line ++ [c], afterReturn := false }, none) := by
    have hlf' : c ≠ '\n' := fun h => hlf (h ▸ hc)
    have hcr' : c ≠ '\r' := fun h => hcr (h ▸ hc)
    simp [feed, hlf', hcr']
  induction text generalizing r with
  | nil => exact absurd rfl hne
  | cons c cs ih =>
    rw [read_cons, hchar r List.mem_cons_self]
    cases cs with
    | nil => rfl
    | cons d ds =>
      rw [ih _ (fun h => hlf (List.mem_cons_of_mem _ h)) (fun h => hcr (List.mem_cons_of_mem _ h))
        (List.cons_ne_nil _ _) fun s c hc => hchar s (List.mem_cons_of_mem _ hc)]
      simp

/-- A field of data and an empty line are one message. -/
theorem read_data {text : List Char} (hlf : '\n' ∉ text) (hcr : '\r' ∉ text) :
    start.read (['d', 'a', 't', 'a', ':', ' '] ++ text ++ ['\n', '\n']) = (start, [⟨defaultEvent, text⟩]) := by
  have hline : start.read (['d', 'a', 't', 'a', ':', ' '] ++ text) =
      ({ start with line := ['d', 'a', 't', 'a', ':', ' '] ++ text }, []) := by
    apply read_line
    · simp [hlf]
    · simp [hcr]
    · simp
  rw [read_append, hline]
  simp [read_cons, feed, endLine, field, fieldValue, start]

end Reader

end CyberstalkMe.Foundations.EventStream
