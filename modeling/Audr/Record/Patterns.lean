import Audr.Record.Portable

/-! Identifiers and versions: what the two packages match, and where they differ. -/

namespace Audr.Record

open JsRecord (versionPattern recordIdentifier)

variable {library : Library}

end Audr.Record
