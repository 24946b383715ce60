import StackCalc.CommandLine.Repl
import StackCalc.Proofs.RegisterNames

/-! Which registers can be listed. A name that holds no opening bracket holds no tag and is shown as
it is, so the names of the scanner never stand in the way of a listing. Only a name that comes from
elsewhere may hold tags that make no sense. -/
namespace StackCalc

namespace Markup

end Markup

namespace Grid

end Grid

end StackCalc
