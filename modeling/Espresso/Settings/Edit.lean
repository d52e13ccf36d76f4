import Espresso.Settings.Persistence

namespace Espresso.Settings

inductive Edit where
  | patch (n : Section) (fields : Json)
  | patchAll (document : Json)
  | reset (n : Section)
  | load (n : Section) (m : Medium)

def documentsFor (n : Section) (document : Json) : List Json :=
  (document.members?.getD []).filterMap fun (name, fields) =>
    if name = n.name then some fields else none

def Edit.documents (n : Section) : Edit → List Json
  | .patch k fields => if k = n then [fields] else []
  | .patchAll document => documentsFor n document
  | .reset _ => []
  | .load k m => if k = n then ((m.read (address n)).toOption.bind Json.ofBytes?).toList else []

def Edit.restarts (n : Section) : Edit → Bool
  | .patch _ _ => false
  | .patchAll _ => false
  | .reset k => k = n
  | .load k _ => k = n

def edit (s : Settings) : Edit → Settings
  | .patch n fields => s.patch n fields
  | .patchAll document => s.patchAll document
  | .reset n => s.reset n
  | .load n m => loadSection m s n

def edits (s : Settings) (es : List Edit) : Settings := es.foldl edit s

end Espresso.Settings
