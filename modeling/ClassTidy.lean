import ClassTidy.Main
import ClassTidy.Proofs.Rows
import ClassTidy.Proofs.Scopes
import ClassTidy.Proofs.Words
import ClassTidy.Proofs.Listing
import ClassTidy.Proofs.LongestStem
import ClassTidy.Proofs.Order
import ClassTidy.Proofs.Idempotence
import ClassTidy.Proofs.LineBreaks
import ClassTidy.Proofs.Json.Grammar
import ClassTidy.Proofs.Json.Numerals
import ClassTidy.Proofs.Json.Strings
import ClassTidy.Proofs.Json.Written
import ClassTidy.Proofs.Json.Yielded
import ClassTidy.Proofs.SettingsFiles
import ClassTidy.Proofs.CommandLines
import ClassTidy.Proofs.ParsedInput
import ClassTidy.Proofs.Overrides
import ClassTidy.Proofs.ExitStatus
import ClassTidy.Proofs.OutputForms
import ClassTidy.Proofs.LongestFit
import ClassTidy.Proofs.BareNames
import ClassTidy.Proofs.Splitting
import ClassTidy.Proofs.CommandGrammar
import ClassTidy.Proofs.CategoryOrder
import ClassTidy.Proofs.Json.Skipping
import ClassTidy.Proofs.Json.Delimited
import ClassTidy.Proofs.Json.Taken
import ClassTidy.Proofs.Json.Members
import ClassTidy.Proofs.Json.Fields
import ClassTidy.Proofs.FieldByField
import ClassTidy.Proofs.MapOrder
import ClassTidy.Proofs.Interpolation
import ClassTidy.Proofs.Labels
import ClassTidy.Proofs.KeysInUse
import ClassTidy.Proofs.Positions
import ClassTidy.Proofs.EmptyLayouts
import ClassTidy.Proofs.AsciiWidth
