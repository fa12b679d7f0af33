import Std.Data.TreeSet

/-! Sets of names. They are listed in the order of their code points, whatever the order of arrival. -/
namespace Pseudonym

abbrev NameSet := Std.TreeSet String

namespace NameSet

def ofNames (names : List String) : NameSet := Std.TreeSet.ofList names

def add (names : NameSet) (name : String) : Bool × NameSet :=
  (!names.contains name, names.insert name)

end NameSet
end Pseudonym
