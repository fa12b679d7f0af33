/-! Documents that programs load: bytes that have to be there, spell text, and follow a format. -/
namespace Pseudonym

inductive LoadFault where
  | missing
  | notText
  | malformed
  deriving DecidableEq, Repr

def load {α : Type} (read? : String → Option α) : Option ByteArray → Except LoadFault α
  | none => .error .missing
  | some bytes =>
      match String.fromUTF8? bytes with
      | none => .error .notText
      | some content =>
          match read? content with
          | none => .error .malformed
          | some value => .ok value

end Pseudonym
