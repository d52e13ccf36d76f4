import Espresso.Statistics

namespace Espresso.Statistics

inductive Change where
  | shot
  | steamCycle
  | energy (amount : Single)
  | onMinutes (minutes : UInt32)
  | maintenance (kind : Maintenance) (timestamp : UInt32)
  | resetDaily
  | rollDay (day : UInt32)
  | startSession (timestamp : UInt32)

def change (s : Statistics) : Change → Statistics
  | .shot => s.recordShot
  | .steamCycle => s.recordSteamCycle
  | .energy amount => (s.addEnergy amount).getD s
  | .onMinutes minutes => s.addOnMinutes minutes
  | .maintenance kind timestamp => s.recordMaintenance kind timestamp
  | .resetDaily => s.resetDaily
  | .rollDay day => s.rollDay day
  | .startSession timestamp => s.startSession timestamp

def changes (s : Statistics) (cs : List Change) : Statistics := cs.foldl change s

end Espresso.Statistics
