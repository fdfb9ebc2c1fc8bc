import Gallery.Controllers.Server
import Gallery.Pages.UserText

/-!
# The text of a message on its three ways into a window

The sender's script shows what was typed. The history is rendered as JSON once
and read once. A push carries `message.text.to_json`, which Pusher encodes and
the browser decodes once more, and the handler only cuts the quotes off, so that
the window shows the escape sequences of the first encoding.

## Main results

* `pushed_eq` — what a push shows
* `live_text` — the three agree exactly on plain texts
-/

namespace Gallery

open Rails
open Text (utf16 utf16_injective)
open Text.Json (Writer Encoder isPlain standard)

open MessageText

variable (to_json : Encoder) (pusher : Writer) (text : String)

/-- The history shows the stored text. -/
theorem loaded_eq : loaded to_json text = some (echoed text) := to_json.parse_encode text.toList

/-- A push carries the literal of the text, quotes included. -/
theorem received_eq :
    received to_json pusher text = some (utf16 (to_json.encode text.toList)) :=
  pusher.parse_encode _

/-- A push shows the escaped text. -/
theorem pushed_eq : pushed to_json pusher text = some (utf16 (to_json.escaped text.toList)) := by
  rw [pushed, received_eq, Writer.encode]
  -- the quotes are one code unit each
  have hquote : Text.units '"' = [0x22] := by decide
  simp [slice, hquote]

/-- In the chat of a setting that encodes like `to_json`, a push shows what the
setting says. -/
theorem pushed_eq_setting {g : Chat.Setting}
    (hg : ∀ text, (g.to_json text).toList = to_json.escaped text.toList) :
    pushed to_json pusher text = some (utf16 (g.to_json text).toList) := by
  rw [pushed_eq, hg]

/-- Push, echo and history show the same string exactly if every character of the
text stands for itself in a JSON literal. -/
theorem live_text :
    (pushed to_json pusher text = some (echoed text) ∧
      loaded to_json text = some (echoed text) ∧
      pushed to_json pusher text = loaded to_json text) ↔
    ∀ c ∈ text.toList, isPlain c := by
  rw [loaded_eq, pushed_eq, ← to_json.escaped_eq_iff]
  constructor
  · rintro ⟨hpush, -⟩
    exact utf16_injective (Option.some.inj hpush)
  · intro hplain
    have hpush := congrArg (fun cs => some (utf16 cs)) hplain
    exact ⟨hpush, rfl, hpush⟩

/-- A text of plain characters. -/
theorem live_text_hello :
    pushed standard standard.toWriter "hello" = some (echoed "hello") ∧
      loaded standard "hello" = some (echoed "hello") ∧
      pushed standard standard.toWriter "hello" = loaded standard "hello" :=
  (live_text standard standard.toWriter "hello").mpr
    (List.all_eq_true.mp (by decide))

/-- An umlaut that the model accepts arrives as an escape sequence. -/
theorem umlaut_pushed_escaped :
    Message.valid (some 1) (some 2) (some "für") = true ∧ fitsString "für" = true ∧
      pushed standard standard.toWriter "für" = some (utf16 ("f\\u00fcr").toList) ∧
      loaded standard "für" = some (echoed "für") ∧
      pushed standard standard.toWriter "für" ≠ some (echoed "für") := by
  decide

end Gallery
