import PullPlan.Text.Basic

/-!
# Terminal styles

A styled text is put between the escape sequence of its style and the one that resets it. A reset
inside the text would end the style early, so the style is taken up again after it.
-/

namespace PullPlan

/-- The styles of the tool's output. -/
inductive Style where
  | cyan
  | boldCyan
  | green
  | yellow
  | red
  | brightBlack
  deriving DecidableEq

namespace Style

/-- The escape sequence with the given parameters. -/
def sequence (parameters : Text) : Text := '\x1b' :: '[' :: parameters ++ ['m']

/-- The parameters of a style. -/
def parameters : Style → Text
  | .cyan => "36".toList
  | .boldCyan => "1;36".toList
  | .green => "32".toList
  | .yellow => "33".toList
  | .red => "31".toList
  | .brightBlack => "90".toList

/-- The sequence that ends every style. -/
def reset : Text := sequence ['0']

/-- Puts the sequence `start` after each reset of a text. -/
def reopen (start : Text) : Text → Text
  | [] => []
  | '\x1b' :: '[' :: '0' :: 'm' :: t => reset ++ start ++ reopen start t
  | c :: t => c :: reopen start t

/-- The text in a style, if colours are wanted. -/
def paint (colored : Bool) (style : Style) (t : Text) : Text :=
  if colored then
    let start := sequence style.parameters
    start ++ reopen start t ++ reset
  else t

end Style
end PullPlan
