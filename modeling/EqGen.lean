import EqGen.Fuzz.RoundProtocol
import EqGen.Fuzz.Report
import EqGen.Dialects.Cratedb.Fence
import EqGen.Fuzz.Multisets
import EqGen.Fuzz.MultisetOrder
import EqGen.Fuzz.Session
import EqGen.Fuzz.JournalFile
import EqGen.Fuzz.Corpus
import EqGen.Lib.SqlTokens
import EqGen.Lib.SqlGrammar
import EqGen.Lib.SqlParser
import EqGen.Ir.RoundTrip
import EqGen.Ir.Lexed
import EqGen.Fuzz.Tolerance
import EqGen.Dialects.Duckdb.Cli
import EqGen.Fuzz.Closeness
import EqGen.Equivalence.Rows
import EqGen.Equivalence.Names
import EqGen.Equivalence.Copies
import EqGen.Equivalence.Expansion
import EqGen.Equivalence.Builders.Expansion
import EqGen.Fuzz.Freeze
import EqGen.Fuzz.JsonValues
import EqGen.Fuzz.Printed
import EqGen.Fuzz.Tally
import EqGen.Fuzz.Frozen
import EqGen.Lib.Numerals
import EqGen.Lib.Doubles
import EqGen.Lib.Literals
import EqGen.Equivalence.Builders.Joins
import EqGen.Equivalence.Joins
import EqGen.Dialects.Emitters
import EqGen.Equivalence.Emitted
import EqGen.Equivalence.Ordered
import EqGen.Dialects.Qualify
import EqGen.Builder.Accounts
import EqGen.Builder.Discipline
import EqGen.Builder.Factory
import EqGen.Builder.Budget
import EqGen.Equivalence.Builders.DmlTables
import EqGen.Equivalence.Builders.Partitioning
import EqGen.Equivalence.Builders.Rewrites
import EqGen.Equivalence.Builders.Selects
import EqGen.Equivalence.Disciplines
import EqGen.Equivalence.Factory
import EqGen.Equivalence.Generator
import EqGen.Equivalence.TypeUses
import EqGen.Equivalence.TypeBuilders
import EqGen.Equivalence.TypeRuns
import EqGen.Fuzz.Schedule
import EqGen.Lib.Dict
import EqGen.Evaluation.Denominator
import EqGen.Evaluation.Lcov
import EqGen.Evaluation.Readers
import EqGen.Fuzz.Sampling
import EqGen.Generators.TypedPredicate.Build
import EqGen.Generators.TypedPredicate.Typing
import EqGen.Lib.Draws
import EqGen.Generators.TypedPredicate.Functions
import EqGen.Lib.SqlConditions
import EqGen.Generators.TypedPredicate.Print
import EqGen.Generators.TypedPredicate.Reading
import EqGen.Generators.TypedPredicate.RoundTrip
import EqGen.Builder.Lockstep
import EqGen.Equivalence.Renaming
import EqGen.Equivalence.Renamed
import EqGen.Equivalence.RenamedBuilders
import EqGen.Equivalence.Forks
import EqGen.Lib.Ascent
import EqGen.Builder.Promises
import EqGen.Equivalence.Contracts
import EqGen.Equivalence.ContractNodes
import EqGen.Equivalence.ContractSteps
import EqGen.Equivalence.RowIdentities
import EqGen.Equivalence.ContractQueries
import EqGen.Equivalence.ContractPartitions
import EqGen.Equivalence.ContractRewrites
import EqGen.Equivalence.ContractJoins
import EqGen.Equivalence.ContractExpansions
import EqGen.Equivalence.RowContract
import EqGen.Equivalence.PortableContract
