import FilterLang.Envelope.Sequelize
import FilterLang.Envelope.TypeOrm
import FilterLang.Filter.Printer
import FilterLang.Policy.Reader
import FilterLang.Proofs.Query.Progress
import FilterLang.Query.Accept
import FilterLang.Target.Mongo
import FilterLang.Target.Prisma
import FilterLang.Target.Sequelize
import FilterLang.Target.Sql
import FilterLang.Proofs.Query.Stream
import FilterLang.Proofs.Query.Phrase
import FilterLang.Proofs.Query.Recognition
import FilterLang.Proofs.Number.Nearest
import FilterLang.Proofs.Number.Written
import FilterLang.Proofs.Filter.Literal
import FilterLang.Proofs.Query.Names
import FilterLang.Proofs.Filter.RoundTrip
import FilterLang.Proofs.Filter.Inverse
import FilterLang.Proofs.Filter.Depth
import FilterLang.Proofs.Filter.Meaning
import FilterLang.Proofs.TypeOrm.Lowering
import FilterLang.Proofs.TypeOrm.Matching
import FilterLang.Proofs.TypeOrm.Draft
import FilterLang.Proofs.Sql.Clause
import FilterLang.Proofs.Sql.Unambiguous
import FilterLang.Proofs.Sql.Reading
import FilterLang.Proofs.Sql.Skeleton
import FilterLang.Proofs.TypeOrm.Opening
import FilterLang.Proofs.TypeOrm.Faithful
import FilterLang.Proofs.TypeOrm.Markers
import FilterLang.Proofs.Json.Reading
import FilterLang.Proofs.Prisma.Faithful
import FilterLang.Proofs.Mongo.Faithful
import FilterLang.Proofs.Sequelize.Faithful
import FilterLang.Proofs.Json.Alike
import FilterLang.Proofs.Prisma.Trails
import FilterLang.Proofs.TypeOrm.Trails
import FilterLang.Proofs.Target.Fields
import FilterLang.Proofs.Target.Faults
import FilterLang.Proofs.TypeOrm.Format
import FilterLang.Proofs.Target.Envelopes
import FilterLang.Proofs.Number.Order
import FilterLang.Proofs.Query.Numerals
import FilterLang.Proofs.Target.Nulls
import FilterLang.Proofs.Number.Texts
import FilterLang.Proofs.Target.Patterns
import FilterLang.Proofs.Filter.Grouping
import FilterLang.Proofs.Sequelize.Grouping
import FilterLang.Proofs.Target.Grouping
import FilterLang.Proofs.Query.Extension
import FilterLang.Proofs.Query.Composition
import FilterLang.Proofs.Filter.WellFormed
import FilterLang.Proofs.Query.Spelling
import FilterLang.Proofs.Filter.Deepest
import FilterLang.Proofs.Query.Places
import FilterLang.Proofs.Query.Refusal
import FilterLang.Proofs.Query.Stops
import FilterLang.Proofs.Query.Descent
import FilterLang.Proofs.Query.Requests
import FilterLang.Proofs.Policy.Requirements
import FilterLang.Proofs.Policy.Extraction
import FilterLang.Proofs.Number.Whole
import FilterLang.Proofs.Policy.Enumerations
import FilterLang.Proofs.Sequelize.Needs
import FilterLang.Proofs.Target.Tables
import FilterLang.Proofs.Json.Distinct
import FilterLang.Proofs.TypeOrm.Branches
import FilterLang.Proofs.TypeOrm.Termination
import FilterLang.Proofs.Sql.Placeholders
import FilterLang.Proofs.Query.Spacing
import FilterLang.Proofs.Mongo.Patterns
import FilterLang.Proofs.Query.Keywords
import FilterLang.Proofs.Query.Cursor
import FilterLang.Proofs.Query.Counting
import FilterLang.Proofs.Query.Lockstep
import FilterLang.Proofs.Query.Bounds
import FilterLang.Proofs.Number.Numeral
import FilterLang.Proofs.Query.Numbers
import FilterLang.Proofs.Query.Literals
