import QueryLoom.AlterSession
import QueryLoom.Postgres.Address
import QueryLoom.Postgres.Client
import QueryLoom.Scripted.Client
import QueryLoom.Scripted.Server
import QueryLoom.Table.Json
import QueryLoom.Proofs.Statement.Positional
import QueryLoom.Proofs.Statement.Markers
import QueryLoom.Proofs.Statement.References
import QueryLoom.Proofs.Database.Transparency
import QueryLoom.Proofs.Database.Invalidation
import QueryLoom.Proofs.Database.Find
import QueryLoom.Proofs.Statement.Substitution
import QueryLoom.Proofs.Statement.Keys
import QueryLoom.Proofs.Chain.Refusal
import QueryLoom.Proofs.Database.Reset
import QueryLoom.Proofs.Chain.Lists
import QueryLoom.Proofs.Table.DefaultExpr
import QueryLoom.Proofs.Table.Server
import QueryLoom.Proofs.AlterSession.Snapshot
import QueryLoom.Proofs.AlterSession.Refusal
import QueryLoom.Proofs.AlterSession.Requested
import QueryLoom.Proofs.Wire.Moment
import QueryLoom.Proofs.Wire.Bytea
import QueryLoom.Proofs.Wire.Text
import QueryLoom.Proofs.Text.Numeral
import QueryLoom.Proofs.Wire.Numeric
import QueryLoom.Proofs.Wire.Integer
import QueryLoom.Proofs.Chain.Parts
import QueryLoom.Proofs.Statement.Selection
import QueryLoom.Proofs.Statement.Reading
import QueryLoom.Proofs.Table.Literal
import QueryLoom.Proofs.AlterSession.TextDefault
import QueryLoom.Proofs.Chain.Alternatives
import QueryLoom.Proofs.Statement.Whitespace
import QueryLoom.Proofs.AlterSession.ReportedDefault
import QueryLoom.Proofs.Value.Reread
import QueryLoom.Proofs.Cache.Log
import QueryLoom.Proofs.Wire.Interval
import QueryLoom.Proofs.Identifier.Grammar
import QueryLoom.Proofs.Statement.Writes
import QueryLoom.Proofs.Table.ForeignKey
import QueryLoom.Proofs.Chain.KeySearch
import QueryLoom.Proofs.StatementKind
