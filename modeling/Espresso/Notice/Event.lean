import Espresso.Machine.Basic
import Espresso.Settings.Basic
import Espresso.Statistics

namespace Espresso

inductive Event where
  | settingsChanged (s : Settings)
  | statsChanged (s : Statistics)
  | stateChanged (s : LiveState)
  | shotCompleted (s : Shot)
  | scheduleTriggered (e : ScheduleEntry)

end Espresso
