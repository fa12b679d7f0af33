import Pseudonym.Ledger
import Pseudonym.Random.Source

/-! Names of a fixed lead and random hexadecimal digits. When a width has no free name within the
limits of a request, the request goes on with one digit more, and later requests for the same
length start there. -/
namespace Pseudonym.HexName

def defaultLength : Nat := 6

def maxWidth : Nat := 64

variable {σ : Type} [RandomSource σ]

def digits (wanted : Nat) (source : σ) : List Char × σ :=
  if wanted = 0 then ([], source)
  else
    let (drawn, source) := RandomSource.between source 10000 99999999 (by decide)
    let written := Nat.toDigits 16 drawn.val
    let (rest, source) := digits (wanted - written.length) source
    (written.take wanted ++ rest, source)
termination_by wanted
decreasing_by
  have := Nat.length_toDigits_pos (b := 16) (n := drawn.val)
  omega

def draw (lead : String) (width : Nat) (source : σ) : String × σ :=
  let (written, source) := digits width source
  (lead ++ String.ofList written, source)

/-- The widths in use, by the length asked for. A length that is not listed is its own width. -/
abbrev Widths := List (Nat × Nat)

def requested (length : Option Nat) : Nat := max 1 (min maxWidth (length.getD defaultLength))

def Widths.width (widths : Widths) (requested : Nat) : Nat := (widths.lookup requested).getD requested

def Widths.widen (widths : Widths) (requested width : Nat) : Widths := (requested, width) :: widths

variable {Books : Type}

def issueFrom (issuing : Issuing Books) (lead label : String) (requested width : Nat) (books : Books)
    (widths : Widths) (source : σ) : Except NameError String × Books × Widths × σ :=
  match issuing books label (draw lead width) source with
  | (.ok name, books, source) => (.ok name, books, widths, source)
  | (.error cause, books, source) =>
      if width < maxWidth then
        issueFrom issuing lead label requested (width + 1) books (widths.widen requested (width + 1)) source
      else (.error cause, books, widths, source)
termination_by maxWidth - width

def issue (issuing : Issuing Books) (lead label : String) (length : Option Nat) (books : Books) (widths : Widths)
    (source : σ) : Except NameError String × Books × Widths × σ :=
  issueFrom issuing lead label (requested length) (widths.width (requested length)) books widths source

end Pseudonym.HexName
