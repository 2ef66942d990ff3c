/-
RunControl/Cli/Dialogue.lean

What a command says to the store, and what it makes of the answers.  A dialogue
is a tree: at each node it prints a line, sends intents, or looks at a state of
the store, and every state that it may see leads to a dialogue of its own.  So a
dialogue says nothing about time; who answers it, and when, is settled elsewhere.

Dialogues are put together in sequence, and one that fails ends the sequence
(`bind_fail`).
-/
import RunControl.State

namespace RunControl.Cli

/-- What a command says to the store. -/
inductive Dialogue (α : Type) where
  | done (result : α)
  /-- Ends with a message about what went wrong. -/
  | fail (message : String)
  /-- Prints a line. -/
  | print (line : String) (next : Dialogue α)
  /-- Prints a line among the messages. -/
  | warn (line : String) (next : Dialogue α)
  /-- Sends an intent and goes on at once. -/
  | send (intent : Intent) (next : Dialogue α)
  /-- Sends intents; goes on with the first state that is `wanted` once they have
  been applied. -/
  | await (intents : List Intent) (wanted : State → Bool) (next : State → Dialogue α)
  /-- Goes on with the present state. -/
  | look (next : State → Dialogue α)
  deriving Inhabited

namespace Dialogue

variable {α β γ : Type}

/-- One dialogue after another. -/
def bind : Dialogue α → (α → Dialogue β) → Dialogue β
  | done a, f => f a
  | fail message, _ => fail message
  | print line next, f => print line (next.bind f)
  | warn line next, f => warn line (next.bind f)
  | send intent next, f => send intent (next.bind f)
  | await intents wanted next, f => await intents wanted fun s => (next s).bind f
  | look next, f => look fun s => (next s).bind f

instance : Monad Dialogue where
  pure := done
  bind := bind

@[simp] theorem bind_done (a : α) (f : α → Dialogue β) : (done a).bind f = f a := rfl

@[simp] theorem bind_fail (message : String) (f : α → Dialogue β) :
    (fail message : Dialogue α).bind f = fail message := rfl

@[simp] theorem bind_pure (d : Dialogue α) : d.bind done = d := by
  induction d with
  | done | fail => rfl
  | print _ _ ih | warn _ _ ih | send _ _ ih => simp [bind, ih]
  | await _ _ _ ih | look _ ih => simp [bind, ih]

theorem bind_assoc (d : Dialogue α) (f : α → Dialogue β) (g : β → Dialogue γ) :
    (d.bind f).bind g = d.bind fun a => (f a).bind g := by
  induction d with
  | done | fail => rfl
  | print _ _ ih | warn _ _ ih | send _ _ ih => simp [bind, ih]
  | await _ _ _ ih | look _ ih => simp [bind, ih]

/-! ### Single moves -/

/-- Prints lines. -/
def printAll : List String → Dialogue Unit
  | [] => done ()
  | line :: lines => print line (printAll lines)

/-- Sends an intent. -/
def tell (intent : Intent) : Dialogue Unit :=
  send intent (done ())

/-- Sends intents and waits for a state. -/
def ask (intents : List Intent) (wanted : State → Bool) : Dialogue State :=
  await intents wanted done

/-- The present state. -/
def present : Dialogue State :=
  look done

/-- Fails with the last failure of a resource, if there is one; `what` was tried. -/
def refuse (s : State) (r : Resource) (what : String) : Dialogue Unit :=
  match s.errors.get r with
  | some failure => fail (what ++ ": " ++ failure.message)
  | none => done ()

end Dialogue

end RunControl.Cli
