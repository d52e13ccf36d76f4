import Espresso.Shot.History

namespace Espresso.ShotHistory

inductive Change where
  | add (s : Shot)
  | rate (index : Nat) (rating : UInt8)
  | clear
  | decode (bytes : Bytes)
  | load (m : Medium)

def change (h : ShotHistory) : Change → ShotHistory
  | .add s => h.add s
  | .rate index rating => (h.rate index rating).toOption.getD h
  | .clear => h.clear
  | .decode bytes => (ofBytes bytes).toOption.getD h
  | .load m => ShotHistory.load m

def changes (h : ShotHistory) (cs : List Change) : ShotHistory := cs.foldl change h

end Espresso.ShotHistory
