/-! What the program calls itself, and the form of its JSON output. -/
namespace Pseudonym.Release

def program : String := "jsveil"

def version : String := "0.2.0"

def banner : String := program ++ " " ++ version

def outputSchema : Nat := 1

end Pseudonym.Release
