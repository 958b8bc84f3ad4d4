import AddonExchange.Proofs.Settings.KnownKeys
import AddonExchange.Settings.File

/-! Settings that are read are within bounds, unless they were settings before. The settings within
bounds are just those that are read again from what they are written as. -/

namespace AddonExchange

open Checked

variable {Input : Type}

variable {v : Validator Input}

section Reading

variable {data : Input} {entries : Text → Option Input} {settings : Settings}

end Reading

section Writing

end Writing

namespace SettingsFile

variable {libraries : Libraries} {around : Surroundings} {settings : Settings}

end SettingsFile

end AddonExchange
