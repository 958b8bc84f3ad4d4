import AddonExchange.Proofs.Text.Basic
import AddonExchange.Proofs.Tree.Format
import AddonExchange.Settings.Conversion

namespace AddonExchange

namespace Checked

variable {α β Input : Type} {entries others : Text → Option Input} {key : String}

end Checked

open Checked

variable {Input : Type} {v : Validator Input}

namespace Validator

variable {α : Type} {name : String} {ready? : Input → Option α}
  {read : (Text → Option Input) → Checked α} {input : Input} {entries : Text → Option Input}

end Validator

section Fields

variable {entries : Text → Option Input}

end Fields

section Libraries

end Libraries

end AddonExchange
