import Espresso.Settings.Kind

/-!
Sections of settings, described field by field. A section is changed by a document that names some
of its fields; each field is taken or left on its own.
-/

namespace Espresso

structure Field (σ : Type) : Type 1 where
  key : String
  {α : Type}
  kind : Kind α
  get : σ → α
  set : σ → α → σ
  secret : Bool := false

namespace Field

variable {σ : Type}

def accept (f : Field σ) (members : Json.Members) : Option f.α :=
  (Json.find? f.key members).bind f.kind.accept

def accepts (f : Field σ) (members : Json.Members) : Bool := (f.accept members).isSome

def patch (f : Field σ) (members : Json.Members) (s : σ) : σ :=
  (f.accept members).elim s (f.set s)

def scalar (f : Field σ) (s : σ) : Scalar := f.kind.scalar (f.get s)

end Field

structure Schema (σ : Type) : Type 1 where
  initial : σ
  fields : List (Field σ)
  /-- Brings the settings in step that follow from others. -/
  settle : σ → σ := id

namespace Schema

variable {σ : Type} (S : Schema σ)

def patch (s : σ) (v : Json) : σ :=
  match v.members? with
  | some members => S.settle (S.fields.foldl (fun s f => f.patch members s) s)
  | none => s

def count (v : Json) : Nat :=
  match v.members? with
  | some members => S.fields.countP fun f => f.accepts members
  | none => 0

def stored (s : σ) : String :=
  String.ofList (Json.objectText (S.fields.map fun f => (f.key, (f.scalar s).stored)))

def toJson (s : σ) : Json :=
  .ofPairs ((S.fields.filter fun f => !f.secret).map fun f => (f.key, (f.scalar s).toJson))

def same (s t : σ) : Bool := S.fields.all fun f => (f.scalar s).same (f.scalar t)

end Schema

end Espresso
