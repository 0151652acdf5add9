import FlightRecorder.Device.Failure

/-!
# Error reports

An error as the user sees it: a sentence, and the sentences that it goes back to.
-/

namespace FlightRecorder

/-- An error and its causes, nearest first. -/
structure Report where
  headline : String
  causes : List String
  deriving DecidableEq, Repr

namespace Report

/-- An error without causes. -/
def ofSentence (sentence : String) : Report := { headline := sentence, causes := [] }

/-- The report of a failed operation. -/
def ofFailure (failure : Failure) : Report :=
  { headline := failure.message, causes := failure.causes }

/-- All sentences, the headline first. -/
def chain (r : Report) : List String := r.headline :: r.causes

/-- Says what was being done when the error arose. -/
def within (r : Report) (sentence : String) : Report :=
  { headline := sentence, causes := r.chain }

/-- Indents the lines of a text but the first. -/
def indent (margin : Nat) (text : String) : String :=
  String.ofList (text.toList.flatMap fun c =>
    if c = '\n' then c :: List.replicate margin ' ' else [c])

/-- A cause among several, with its number. -/
def numbered (n : Nat) (cause : String) : String :=
  let label := toString n
  String.ofList (List.replicate (5 - label.length) ' ') ++ label ++ ": "
    ++ indent 7 cause ++ "\n"

/-- The causes, one below the other; several of them are numbered from `n` on. -/
def causeLines (n : Nat) : List String → String
  | [] => ""
  | cause :: causes => numbered n cause ++ causeLines (n + 1) causes

/-- The text that ends a program with this error. -/
def render (r : Report) : String :=
  "Error: " ++ r.headline ++ "\n" ++
    match r.causes with
    | [] => ""
    | [cause] => "\nCaused by:\n    " ++ indent 4 cause ++ "\n"
    | causes => "\nCaused by:\n" ++ causeLines 0 causes

end Report

end FlightRecorder
