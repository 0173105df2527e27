import FilterQuery.Text.Blank
import FilterQuery.Text.Letters
import FilterQuery.Decimal
import FilterQuery.Binary64
import FilterQuery.Binary64.Shortest
import FilterQuery.Json
import FilterQuery.Value
import FilterQuery.Row
import FilterQuery.Error
import FilterQuery.Config
import FilterQuery.Clause
import FilterQuery.Operator
import FilterQuery.Sort
import FilterQuery.Modifiers
import FilterQuery.Filter
import FilterQuery.Query
import FilterQuery.Prepared
import FilterQuery.Builder
import FilterQuery.Document
import FilterQuery.Rule
import FilterQuery.Shape
import FilterQuery.Reading
import FilterQuery.Reading.Traversal
import FilterQuery.Reading.Walk
import FilterQuery.Reading.InPlace
import FilterQuery.Record
import FilterQuery.Collection
import FilterQuery.Collection.Operation
import FilterQuery.Collection.Shelf
import FilterQuery.Collection.Change
import FilterQuery.Cache
import FilterQuery.Session
import FilterQuery.ResultSet
import FilterQuery.Finder
import FilterQuery.Finder.Request
import FilterQuery.Proofs.Refusal
import FilterQuery.Proofs.Work
import FilterQuery.Proofs.Rounding
import FilterQuery.Proofs.Comparison
import FilterQuery.Proofs.Spelling
import FilterQuery.Proofs.Leaf
import FilterQuery.Proofs.Levels
import FilterQuery.Proofs.Placeholder
import FilterQuery.Proofs.Erasure
import FilterQuery.Proofs.Parts
import FilterQuery.Proofs.Predicate
import FilterQuery.Proofs.Phrase
import FilterQuery.Proofs.Meaning
import FilterQuery.Proofs.Parenthesis
import FilterQuery.Proofs.BalancedQuery
import FilterQuery.Proofs.SearchCondition
import FilterQuery.Proofs.Judgement
import FilterQuery.Proofs.Regrouping
import FilterQuery.Proofs.Window
import FilterQuery.Proofs.Page
import FilterQuery.Proofs.PageNumber
import FilterQuery.Proofs.CallOrder
import FilterQuery.Proofs.LastBound
import FilterQuery.Proofs.Counting
import FilterQuery.Proofs.Transparency
import FilterQuery.Proofs.KeyKind
import FilterQuery.Proofs.RuleGrammar
import FilterQuery.Proofs.Grammar
import FilterQuery.Proofs.Outline
import FilterQuery.Proofs.Blame
import FilterQuery.Proofs.Gathering
import FilterQuery.Proofs.Slot
import FilterQuery.Proofs.LastLimit
import FilterQuery.Proofs.LimitFault
import FilterQuery.Proofs.RoundTrip
import FilterQuery.Proofs.FragmentList
import FilterQuery.Proofs.Positional
import FilterQuery.Proofs.Masking
import FilterQuery.Proofs.Merging
import FilterQuery.Proofs.Separation
import FilterQuery.Proofs.KnownFields
import FilterQuery.Proofs.Reliance
import FilterQuery.Proofs.RulesInPlace
import FilterQuery.Proofs.PermanentLock
import FilterQuery.Proofs.StableOrder
import FilterQuery.Proofs.OneType
import FilterQuery.Proofs.Sampling
import FilterQuery.Proofs.Subset
import FilterQuery.Proofs.Columns
import FilterQuery.Proofs.Intactness
import FilterQuery.Proofs.Inquiry
import FilterQuery.Proofs.Coherence
import FilterQuery.Proofs.Provenance
import FilterQuery.Proofs.Effects
