import Pseudonym.Identifier
import Pseudonym.Text.Blank

/-! Words as identifiers. What a name cannot hold splits a trimmed entry into runs, which are joined in
camel case; a digit cannot come first and gets an underscore put before it. -/
namespace Pseudonym.Word

/-- Scans with two notes: whether something is written, and whether a gap came after it. -/
def scan (written gap : Bool) : List Char → List Char
  | [] => []
  | c :: rest =>
      if !Identifier.isPart c then scan written written rest
      else if gap then c.toUpper :: scan true false rest
      else if !written && !Identifier.isStart c then '_' :: c :: scan true false rest
      else c :: scan true false rest

def normalize? (entry : String) : Option String :=
  match scan false false (Blank.trim entry.toList) with
  | [] => none
  | word => some (String.ofList word)

def list (entries : List String) : List String := (entries.filterMap normalize?).eraseDups

def standard : List String :=
  ["alpha", "amber", "anchor", "apex", "arrow", "aspen", "atlas", "aurora", "badge", "basil",
    "beacon", "birch", "bison", "blaze", "bloom", "breeze", "brook", "cable", "cactus", "canyon",
    "cedar", "cinder", "citrus", "cobalt", "comet", "coral", "crest", "crystal", "dawn", "delta",
    "drift", "dune", "ember", "falcon", "fern", "fjord", "flint", "forest", "frost", "galaxy",
    "garnet", "glacier", "granite", "harbor", "hazel", "heron", "horizon", "indigo", "iris",
    "ivory", "jade", "jasper", "juniper", "kestrel", "lagoon", "lantern", "larch", "lotus",
    "lunar", "magnet", "maple", "marble", "meadow", "meteor", "mist", "nebula", "nectar", "nova",
    "oasis", "onyx", "orbit", "otter", "pebble", "pepper", "pixel", "plume", "prism", "quartz",
    "quill", "raven", "reef", "ridge", "river", "saffron", "sage", "sierra", "solar", "spruce",
    "summit", "tango", "thistle", "tundra", "umber", "valley", "velvet", "willow", "zenith",
    "zephyr"]

end Pseudonym.Word
