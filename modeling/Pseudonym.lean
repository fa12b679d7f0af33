import Pseudonym.Identifier
import Pseudonym.NameSet
import Pseudonym.Retry
import Pseudonym.Kind
import Pseudonym.Error
import Pseudonym.Ledger
import Pseudonym.Random.Source
import Pseudonym.Random.Scripted
import Pseudonym.Random.Keystream
import Pseudonym.Random.Seeded
import Pseudonym.Enumeration
import Pseudonym.Word
import Pseudonym.WordPool
import Pseudonym.HexName
import Pseudonym.Digest.Blake3
import Pseudonym.Text.Blank
import Pseudonym.Seed
import Pseudonym.Options
import Pseudonym.Generator
import Pseudonym.Scope.Kind
import Pseudonym.Scope.Tree
import Pseudonym.Scope.Outline
import Pseudonym.Plan
import Pseudonym.Json.Value
import Pseudonym.Json.Token
import Pseudonym.Json.Reader
import Pseudonym.Json.Layout
import Pseudonym.Json.Decode
import Pseudonym.Document
import Pseudonym.Options.Document
import Pseudonym.Scope.Document
import Pseudonym.Text.Numeral
import Pseudonym.Release
import Pseudonym.Config
import Pseudonym.Plan.Document
import Pseudonym.CommandLine.Setting
import Pseudonym.CommandLine.Arguments
import Pseudonym.CommandLine.Run
import Pseudonym.Text.Faceless
import Pseudonym.Text.Quoted
import Pseudonym.Dump
import Pseudonym.Main
import Pseudonym.Proofs.Retry
import Pseudonym.Proofs.Ledger
import Pseudonym.Proofs.Generator
import Pseudonym.Proofs.Ledger.Issue
import Pseudonym.Proofs.Generator.Global
import Pseudonym.Proofs.Session.Call
import Pseudonym.Proofs.Plan.Script
import Pseudonym.Proofs.Session.Run
import Pseudonym.Proofs.HexName.Widening
import Pseudonym.Proofs.Plan.Capture
import Pseudonym.Proofs.Plan.Lookup
import Pseudonym.Proofs.Word
import Pseudonym.Proofs.WordPool.Draws
import Pseudonym.Proofs.WordPool.Exhaustion
import Pseudonym.Proofs.WordPool.Recycling
import Pseudonym.Proofs.Enumeration
import Pseudonym.Proofs.Enumeration.Length
import Pseudonym.Proofs.Random.Shuffle
import Pseudonym.Proofs.Mangling.Shortest
import Pseudonym.Proofs.Mangling.Endless
import Pseudonym.Proofs.Scope.Eval
import Pseudonym.Proofs.Plan.Site
import Pseudonym.Proofs.Plan.Kept
import Pseudonym.Proofs.Plan.Eval
import Pseudonym.Proofs.Scope.Slot
import Pseudonym.Proofs.Scope.Log
import Pseudonym.Proofs.Scope.Outline
import Pseudonym.Proofs.Plan.Respelling
import Pseudonym.Proofs.Mangling.Sweep
import Pseudonym.Proofs.Plan.Verbatim
import Pseudonym.Proofs.Plan.Policy
import Pseudonym.Proofs.Json.Reader
import Pseudonym.Proofs.Json.Decode
import Pseudonym.Proofs.Document
import Pseudonym.Proofs.WordPool.Entries
import Pseudonym.Proofs.WordPool.Rounds
import Pseudonym.Proofs.Generator.Effort
import Pseudonym.Proofs.Generator.Joined
import Pseudonym.Proofs.Random.Arrangement
import Pseudonym.Proofs.Session.Failure
import Pseudonym.Proofs.Options
import Pseudonym.Proofs.Text.Numeral
import Pseudonym.Proofs.CommandLine
import Pseudonym.Proofs.Seed
