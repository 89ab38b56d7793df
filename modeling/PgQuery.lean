import PgQuery.Node
import PgQuery.Tree
import PgQuery.Location
import PgQuery.Walker
import PgQuery.Walked
import PgQuery.Prune
import PgQuery.Proofs.Leftmost
import PgQuery.Proofs.Resolve
import PgQuery.Proofs.ListLocation
import PgQuery.Proofs.Slots
import PgQuery.Proofs.Canonical
import PgQuery.Proofs.Positions
import PgQuery.Proofs.Notices
import PgQuery.Proofs.Located
import PgQuery.Proofs.Budget
