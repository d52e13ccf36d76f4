import Espresso.Json.Parser
import Espresso.Settings.Basic

namespace Espresso.Settings

def space : String := "settings"

def address (n : Section) : Address := ⟨space, n.name⟩

def loadSection (m : Medium) (s : Settings) (n : Section) : Settings :=
  let s := s.reset n
  match m.read (address n) with
  | .ok bytes => (Json.ofBytes? bytes).elim s (s.patch n)
  | .error _ => s

def load (m : Medium) : Settings := Section.all.foldl (loadSection m) default

def saveSection (s : Settings) (n : Section) (m : Medium) : Except StorageError Unit × Medium :=
  m.write (address n) (Text.toBytes (s.stored n))

def saveSections (s : Settings) : List Section → Medium → Except StorageError Unit × Medium
  | [], m => (.ok (), m)
  | n :: rest, m =>
    let (first, m) := s.saveSection n m
    let (others, m) := s.saveSections rest m
    (match first with
      | .ok _ => others
      | .error e => .error e, m)

def saveAll (s : Settings) (m : Medium) : Except StorageError Unit × Medium :=
  s.saveSections Section.all m

end Espresso.Settings
