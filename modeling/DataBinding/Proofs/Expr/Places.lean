import DataBinding.Eval.Error
import DataBinding.Proofs.Expr.Scanned

/-!
# The places of errors

The message of a text that is no expression gives a place in it, as a number of bytes. That is the
length of a front of the text in whole characters: a fault arises where the text is cut between what
was taken and what is left, and every scan of the text only ever moves between such cuts.

Results:
* `Text.bytes_eq_utf8ByteSize`: the bytes of a list of characters are those of its string.
* `ParseError.message_eq`: how a message ends.
* `parse_error_place`: no cut of the text fails, and an error stands at one.
-/

namespace DataBinding

theorem Text.bytes_eq_utf8ByteSize (cs : List Char) :
    bytes cs = (String.ofList cs).utf8ByteSize := by
  induction cs with
  | nil => rfl
  | cons c cs ih =>
    have hsplit : String.ofList (c :: cs) = String.singleton c ++ String.ofList cs := by
      rw [String.singleton_eq_ofList, ← String.ofList_append]
      rfl
    rw [bytes, ih, hsplit, String.utf8ByteSize_append, String.utf8ByteSize_singleton]

namespace Expr

/-- The end of a message: a place in a text. -/
def placeText (offset : Nat) (input : String) : String := s!" at offset {offset} in `{input}`"

theorem ParseError.message_eq (e : ParseError) :
    (EvalError.parse e).message =
      "parse error: " ++ e.cause.message ++ placeText e.offset e.input := by
  have h : (EvalError.parse e).message = "parse error: " ++ e.message := by
    unfold EvalError.message
    rfl
  have hcause : toString e.cause.message = e.cause.message := rfl
  rw [h, ParseError.message, hcause, placeText]
  simp only [String.append_assoc]

/-- A fault arises at the end of a front of the text. -/
theorem suffix_of_readWhole {text : List Char} {fault : Fault}
    (h : readWhole text = .error fault) : fault.rest <:+ text := by
  have hwhole := agrees_whole ⟨text⟩
  rw [h] at hwhole
  exact (hwhole (List.suffix_refl _)).2

/-- Reading any text, every offset of the cursor lies between two characters, and every part of the
    text is cut out there; also where the word `not` was passed and the cursor goes back. An error
    is one of the parser, and its message ends with such an offset and the text. -/
theorem parse_error_place (input : List Char) :
    Scan.parse input = some (parse input) ∧
      ∀ e, parse input = .error e →
        (EvalError.parse e).family = .parse ∧
          ∃ start front back, input = front ++ back ∧
            (EvalError.parse e).message =
              start ++ placeText (String.ofList front).utf8ByteSize (String.ofList input) := by
  refine ⟨Scan.parse_eq input, fun e he => ⟨EvalError.family_parse e, ?_⟩⟩
  rw [parse, parseText_eq] at he
  cases hread : readWhole input with
  | ok read =>
    rw [hread] at he
    cases he
  | error fault =>
    obtain ⟨front, hfront⟩ := suffix_of_readWhole hread
    rw [hread] at he
    obtain rfl := Except.error.inj he
    refine ⟨"parse error: " ++ fault.cause.message, front, fault.rest, hfront.symm, ?_⟩
    have hoffset := @offset_eq ⟨input⟩ _ _ hfront.symm
    rw [ParseError.message_eq, ← Text.bytes_eq_utf8ByteSize, ← hoffset]

/-- After a letter of two bytes and a blank the word `not` is read, and given back. -/
theorem parse_error_place_not :
    parse ['é', ' ', 'n', 'o', 't', ' ', 'b'] =
        .error ⟨.trailingInput, 3, String.ofList ['é', ' ', 'n', 'o', 't', ' ', 'b']⟩ ∧
      ∃ start front back, ['é', ' ', 'n', 'o', 't', ' ', 'b'] = front ++ back ∧
        (EvalError.parse
            ⟨.trailingInput, 3, String.ofList ['é', ' ', 'n', 'o', 't', ' ', 'b']⟩).message =
          start ++ placeText (String.ofList front).utf8ByteSize
            (String.ofList ['é', ' ', 'n', 'o', 't', ' ', 'b']) := by
  have htext : parseText ['é', ' ', 'n', 'o', 't', ' ', 'b'] =
      .error ⟨.trailingInput, ['n', 'o', 't', ' ', 'b']⟩ := by
    rfl
  have hparse : parse ['é', ' ', 'n', 'o', 't', ' ', 'b'] =
      .error ⟨.trailingInput, 3, String.ofList ['é', ' ', 'n', 'o', 't', ' ', 'b']⟩ := by
    rw [parse, htext]
    rfl
  exact ⟨hparse, ((parse_error_place _).2 _ hparse).2⟩

end Expr

end DataBinding
