import SiteSurvey.FileView

/-!
# Inquiries

A program that asks the system one question after the other and ends with a value. Nothing is known
of the system but its answers, so an inquiry can be answered by a real system or by a model of one.
-/

namespace SiteSurvey

/-! ## Questions -/

inductive Question where
  | workingDirectory
  | list (path : Path)
  | read (path : Path)
  /-- Whether the path leads to a file. -/
  | isFile (path : Path)
  /-- Whether the path leads to anything. -/
  | isPresent (path : Path)
  /-- To write a text to the file at a path. -/
  | write (path : Path) (text : String)
  deriving DecidableEq, Repr

/-- What a question is answered with. -/
abbrev Question.Answer : Question → Type
  | workingDirectory => Except SystemFault Path
  | list _ => Except AccessError Listing
  | read _ => Except AccessError String
  | isFile _ | isPresent _ => Bool
  | write _ _ => Except SystemFault Unit

/-! ## Inquiries -/

inductive Inquiry (α : Type) where
  | done (value : α)
  | ask (question : Question) (next : question.Answer → Inquiry α)

namespace Inquiry

variable {α β : Type}

def bind (inquiry : Inquiry α) (next : α → Inquiry β) : Inquiry β :=
  match inquiry with
  | done value => next value
  | ask question later => ask question fun answer => (later answer).bind next

instance : Monad Inquiry where
  pure := done
  bind := bind

/-- The inquiry with every question answered in a monad. -/
def perform {m : Type → Type} [Monad m] (answer : (question : Question) → m question.Answer) :
    Inquiry α → m α
  | done value => pure value
  | ask question next => do perform answer (next (← answer question))

/-! ## Single questions -/

/-- The answer to a question. -/
def answerTo (question : Question) : Inquiry question.Answer :=
  ask question done

def workingDirectory : Inquiry (Except SystemFault Path) :=
  answerTo .workingDirectory

def list (path : Path) : Inquiry (Except AccessError Listing) :=
  answerTo (.list path)

def read (path : Path) : Inquiry (Except AccessError String) :=
  answerTo (.read path)

def isFile (path : Path) : Inquiry Bool :=
  answerTo (.isFile path)

def isPresent (path : Path) : Inquiry Bool :=
  answerTo (.isPresent path)

def write (path : Path) (text : String) : Inquiry (Except SystemFault Unit) :=
  answerTo (.write path text)

end Inquiry

end SiteSurvey
