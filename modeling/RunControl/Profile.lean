/-
RunControl/Profile.lean

Risk profiles: questionnaires that the backend keeps.  A status that is not
known here is read as `unknown` and written as such.
-/
import RunControl.Json.Decode

namespace RunControl

open Json

namespace Profile

/-- Where a profile stands. -/
inductive Standing where
  | valid
  | draft
  | expired
  | unknown
  deriving DecidableEq, Inhabited

namespace Standing

/-- The name of a standing. -/
def name : Standing → String
  | valid => "Valid"
  | draft => "Draft"
  | expired => "Expired"
  | unknown => "Unknown"

/-- The standing that a name stands for. -/
def ofName (s : String) : Standing :=
  if s = "Valid" then valid
  else if s = "Draft" then draft
  else if s = "Expired" then expired
  else unknown

@[simp] theorem ofName_name (s : Standing) : ofName s.name = s := by
  cases s <;> decide

/-- Reads a standing. -/
def decode : Decoder Standing := fun n doc =>
  (Decode.name n doc).map ofName

/-- The JSON value of a standing. -/
def toJson (s : Standing) : Json :=
  .string s.name

end Standing

/-- A question of a profile with its answer, which may be any value. -/
structure Question where
  question : String
  answer : Json := .null
  deriving BEq, Inhabited

namespace Question

/-- Reads a question. -/
def decode : Decoder Question := fun n doc => do
  let m ← Decode.recordOf ["question", "answer"] n doc
  let question ← m.required "question" Decode.string
  let answer ← m.withDefault "answer" Decode.any .null
  pure { question, answer }

/-- The JSON value of a question. -/
def toJson (q : Question) : Json :=
  .object [("question", .string q.question), ("answer", q.answer)]

end Question

end Profile

/-- A risk profile. -/
structure Profile where
  id : Option String := none
  name : String
  standing : Profile.Standing := .draft
  created : Option String := none
  risk : Option String := none
  questions : List Profile.Question := []
  deriving BEq, Inhabited

namespace Profile

/-- Reads a profile. -/
def decode : Decoder Profile := fun n doc => do
  let m ← Decode.recordOf ["id", "name", "status", "created", "risk", "questions"] n doc
  let id ← m.optional "id" Decode.string
  let name ← m.required "name" Decode.string
  let standing ← m.withDefault "status" Standing.decode .draft
  let created ← m.optional "created" Decode.string
  let risk ← m.optional "risk" Decode.string
  let questions ← m.withDefault "questions" (Decode.list Question.decode) []
  pure { id, name, standing, created, risk, questions }

/-- The JSON value of a profile. -/
def toJson (p : Profile) : Json :=
  .object (maybe "id" (p.id.map .string) ++
    [("name", .string p.name), ("status", p.standing.toJson)] ++
    maybe "created" (p.created.map .string) ++ maybe "risk" (p.risk.map .string) ++
    if p.questions.isEmpty then []
    else [("questions", .array (p.questions.map Question.toJson))])

end Profile

end RunControl
