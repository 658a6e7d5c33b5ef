import Mathlib.Data.List.Basic

/-!
# Reading an input in pieces

A reader consumes a part of each window it is given and is resumed on what it left, with the
input that came since. If resuming gives what one window would have given, the output does
not depend on how the input was cut.
-/
namespace Resumption

/-- What a reader makes of a window. -/
structure Reading (σ α β : Type) where
  state : σ
  output : List β
  more : Bool
  rest : List α

structure Reader (α β : Type) where
  State : Type
  run : State → List α → Reading State α β

namespace Reader

variable {α β : Type} (reader : Reader α β)

structure Resumable : Prop where
  resumes : ∀ s window later, (reader.run s window).more = true →
    (reader.run s (window ++ later)).output = (reader.run s window).output ++
      (reader.run (reader.run s window).state ((reader.run s window).rest ++ later)).output
  finishes : ∀ s window later, (reader.run s window).more = false →
    (reader.run s (window ++ later)).output = (reader.run s window).output

/-- The output of a reader that is fed chunk by chunk. -/
def feed : reader.State → List α → List (List α) → List β
  | _, _, [] => []
  | s, rest, chunk :: chunks =>
    let reading := reader.run s (rest ++ chunk)
    if reading.more then reading.output ++ feed reading.state reading.rest chunks
    else reading.output

theorem feed_cons (s : reader.State) (rest chunk : List α) (chunks : List (List α)) :
    reader.feed s rest (chunk :: chunks) =
      if (reader.run s (rest ++ chunk)).more then
        (reader.run s (rest ++ chunk)).output ++ reader.feed (reader.run s (rest ++ chunk)).state
          (reader.run s (rest ++ chunk)).rest chunks
      else (reader.run s (rest ++ chunk)).output := rfl

variable {reader}

/-- Fed chunk by chunk or at once, the output is the same. -/
theorem feed_whole (h : reader.Resumable) (s : reader.State) (rest : List α)
    {chunks : List (List α)} (hsome : chunks ≠ []) :
    reader.feed s rest chunks = (reader.run s (rest ++ chunks.flatten)).output := by
  induction chunks generalizing s rest with
  | nil => exact absurd rfl hsome
  | cons chunk chunks ih =>
    rw [feed_cons, List.flatten_cons, ← List.append_assoc]
    cases hmore : (reader.run s (rest ++ chunk)).more with
    | false => exact (h.finishes s (rest ++ chunk) chunks.flatten hmore).symm
    | true =>
      rw [if_pos rfl]
      by_cases hlast : chunks = []
      · simp [hlast, feed]
      · rw [ih _ _ hlast]
        exact (h.resumes s (rest ++ chunk) chunks.flatten hmore).symm

theorem feed_congr (h : reader.Resumable) (s : reader.State) (rest : List α)
    {chunks chunks' : List (List α)} (hsome : chunks ≠ []) (hsome' : chunks' ≠ [])
    (hsame : chunks.flatten = chunks'.flatten) :
    reader.feed s rest chunks = reader.feed s rest chunks' := by
  rw [feed_whole h s rest hsome, feed_whole h s rest hsome', hsame]

end Reader

end Resumption
