import ScimQuery.ListRequest
import ScimQuery.FileTree
import ScimQuery.Main
import ScimQuery.Proofs.Outcome
import ScimQuery.Proofs.Compilation
import ScimQuery.Proofs.ColumnName
import ScimQuery.Proofs.Grammar
import ScimQuery.Proofs.Meaning
import ScimQuery.Proofs.Refusal
import ScimQuery.Proofs.LoadedSettings
import ScimQuery.Proofs.SafeQuery
import ScimQuery.Proofs.Alike
import ScimQuery.Proofs.Binding
import ScimQuery.Proofs.Lookup
import ScimQuery.Proofs.FiniteFloat
import ScimQuery.Proofs.Layering
import ScimQuery.Proofs.Numerals
import ScimQuery.Proofs.PaddedJson
import ScimQuery.Proofs.JsonParts
import ScimQuery.Proofs.ReadJson
import ScimQuery.Proofs.WrittenFilter
import ScimQuery.Proofs.ReadFilter
import ScimQuery.Proofs.Delivery
import ScimQuery.Proofs.FlatFilter
import ScimQuery.Proofs.KeptFilter
import ScimQuery.Proofs.JsonText
import ScimQuery.Proofs.RequestFilter
import ScimQuery.Proofs.ShortestDigits
import ScimQuery.Proofs.SeventeenDigits
import ScimQuery.Proofs.FloatRange
import ScimQuery.Proofs.FloatText
import ScimQuery.Proofs.Document
import ScimQuery.Proofs.JsonLayout
import ScimQuery.Proofs.PrintedQuery
import ScimQuery.Proofs.GroupText
import ScimQuery.Proofs.Parentheses
import ScimQuery.Proofs.TableHistory
import ScimQuery.Proofs.GrownTable
import ScimQuery.Proofs.Irrelevance
import ScimQuery.Proofs.SectionTable
import ScimQuery.Proofs.SettingsFile
import ScimQuery.Proofs.LoadOrder
import ScimQuery.Proofs.ByteOrder
import ScimQuery.Proofs.DefaultOrder
import ScimQuery.Proofs.IntegerLiteral
import ScimQuery.Proofs.LikePattern
import ScimQuery.Proofs.PageRows
import ScimQuery.Proofs.MemberOrder
import ScimQuery.Proofs.DottedScope
import ScimQuery.Proofs.QualifiedText
import ScimQuery.Proofs.Listing
import ScimQuery.Proofs.CommandWords
import ScimQuery.Proofs.CompilationLog
import ScimQuery.Proofs.ColumnGrammar
