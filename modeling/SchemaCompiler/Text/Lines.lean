/-!
# Lines of a text

`lines` cuts a text after each line feed. A carriage return right before a line feed belongs to
the break and is dropped; one at the very end, with no line feed after it, stays. A break at the
end of the text opens no further line, so the empty text has no lines.
-/

namespace SchemaCompiler.Text

/-- The lines of a text given as its characters. -/
def linesOf : List Char → List (List Char)
  | [] => []
  | '\n' :: rest => [] :: linesOf rest
  | '\r' :: '\n' :: rest => [] :: linesOf rest
  | c :: rest =>
    match rest with
    | [] => [[c]]
    | _ :: _ =>
      match linesOf rest with
      | [] => [[c]]
      | line :: later => (c :: line) :: later

/-- The lines of a text. -/
def lines (s : String) : List String :=
  (linesOf s.toList).map String.ofList

example : linesOf ['a', '\r', '\n', 'b', '\n'] = [['a'], ['b']] := by decide
example : linesOf ['a', '\r'] = [['a', '\r']] := by decide
example : linesOf ['\n', '\n'] = [[], []] := by decide

end SchemaCompiler.Text
