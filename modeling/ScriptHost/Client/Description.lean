import ScriptHost.Client.Thrown
/-!
# Descriptions of what was thrown

A record of something thrown consists of what the engine said when it was asked for members and for
texts.  This file tells what each field has to be, given the engine at the time when it was asked.
-/

namespace ScriptHost

variable {σ : Type} [Engine σ]

namespace Described

/-- The text that an engine has for a value; empty if there is none to be had. -/
def text (r : RealmId) (v : Value) (e : σ) : String :=
  let t : Option String := (Engine.answer (.toText r v) e).reply
  t.getD ""

/-- The text of a member: empty if the member is undefined, if it cannot be read, or if what was read
has no text. -/
def member (r : RealmId) (v : Value) (name : String) (e : σ) : String :=
  let read := Engine.answer (.getNamed r v name) e
  let w : Value := read.reply
  if w = .exception ∨ w = .undefined then "" else text r w read.state

/-- Whether an engine says that a value is an object of its own errors. -/
def isError (r : RealmId) (v : Value) (e : σ) : Bool :=
  let b : Bool := (Engine.answer (.isError r v) e).reply
  v.isObject && b

/-- The members that a record tells of. -/
def names : List String := ["name", "message", "cause", "stack"]

/-- The record of what is no error. -/
def plain (r : RealmId) (v : Value) (e : σ) : ExceptionRecord :=
  -- Whether it is an error is asked only of an object.
  .ofMessage (text r v (if v.isObject then (Engine.answer (.isError r v) e).state else e))

end Described

/-- A member that was asked for, with the engine at that time. -/
structure MemberRead (σ : Type) where
  engine : σ
  realm : RealmId
  target : Value
  name : String

/-- The member that was asked for in an exchange, if one was. -/
def Exchange.memberRead? (x : Exchange σ) : Option (MemberRead σ) :=
  match x.request with
  | .getNamed r v name => some ⟨x.before, r, v, name⟩
  | _ => none

/-- The members that were asked for, the first one first. -/
def History.memberReads (history : History σ) : List (MemberRead σ) :=
  (history.filterMap Exchange.memberRead?).reverse

namespace ExceptionRecord

/-- A record tells of an error what its members were when they were asked for, each once and one after
the other. -/
structure Describes (r : RealmId) (v : Value) (reads : List (MemberRead σ))
    (d : ExceptionRecord) : Prop where
  asked : reads.map (fun x => (x.realm, x.target, x.name)) = Described.names.map fun n => (r, v, n)
  fields : [d.name, d.message, d.cause, d.stack] =
    reads.map fun x => Described.member r v x.name x.engine

/-- A record tells of an error what its members were, and of anything else its text, with the engine
when it was asked. -/
def Tells (r : RealmId) (v : Value) (e : σ) (reads : List (MemberRead σ)) (d : ExceptionRecord) :
    Prop :=
  if Described.isError r v e then d.Describes r v reads else d = Described.plain r v e

end ExceptionRecord

end ScriptHost
