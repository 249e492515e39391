import CyberstalkMe.Shared.Encoding
import CyberstalkMe.Foundations.JsonRoundTrip
import CyberstalkMe.Foundations.Binary64

/-! # The text of what is sent

`encoding/json` writes one line, and escapes more than it has to so that a text can stand in a
page. What reads it does not see the difference.
-/
namespace CyberstalkMe.Shared

open Foundations

/-- What the encoder escapes besides quotes, backslashes and control characters. -/
def escapeHTML (c : Char) : Bool := c ∈ ['<', '>', '&', '\u2028', '\u2029']

/-- The output of `json.Marshal`. -/
def text (j : Json ℤ) : List Char := JsonText.write escapeHTML j

theorem escapeHTML_lt {c : Char} (h : escapeHTML c) : c.toNat < 0x10000 := by
  have hall : ∀ c ∈ ['<', '>', '&', '\u2028', '\u2029'], c.toNat < 0x10000 := by simp
  exact hall c (of_decide_eq_true h)

theorem newline_not_mem_text (j : Json ℤ) : '\n' ∉ text j ∧ '\r' ∉ text j := JsonText.newline_not_mem_write _ j

theorem read_text (j : Json ℤ) {rest : List Char} (h : JsonText.skipSpace rest = []) :
    JsonText.read JsonText.unquote (text j ++ rest) = some (j.mapNumber JsonText.Numeral.ofInt) :=
  JsonText.read_unquote_write (fun _ => escapeHTML_lt) j h

/-- `JSON.parse`, whose numbers are doubles. -/
def parseJSON (raw : List Char) : Option (Json ℚ) :=
  (JsonText.read JsonText.unquote raw).map fun j => j.mapNumber fun m => binary64 m.value

/-- A page reads what the encoder writes, each integer as the nearest double. -/
theorem parseJSON_text (j : Json ℤ) {rest : List Char} (h : JsonText.skipSpace rest = []) :
    parseJSON (text j ++ rest) = some (j.mapNumber fun n : ℤ => binary64 n) := by
  rw [parseJSON, read_text j h, Option.map_some, JsonText.mapNumber_mapNumber]
  simp only [JsonText.Numeral.value_ofInt]

theorem parseJSON_text_self (j : Json ℤ) : parseJSON (text j) = some (j.mapNumber fun n : ℤ => binary64 n) := by
  have hparse : parseJSON (text j ++ []) = some (j.mapNumber fun n : ℤ => binary64 n) := parseJSON_text j rfl
  rwa [List.append_nil] at hparse

end CyberstalkMe.Shared
