import MiniSql.Buffers
import MiniSql.Program.Invariant
import MiniSql.Program.LetterCase
import MiniSql.Program.Session
import MiniSql.Program.Ownership
import MiniSql.Program.Calls
import MiniSql.Program.Reading
import MiniSql.Program.Queries
import MiniSql.Program.Monotone
import MiniSql.Program.Concurrent
import MiniSql.Program.Observed
import MiniSql.Program.Printing
import MiniSql.Storage.Append
import MiniSql.Storage.Projection
import MiniSql.Storage.Refusal
import MiniSql.Storage.LineEndings
import MiniSql.Storage.Directories
import MiniSql.Parser.Cursor
import MiniSql.Parser.Impossible
import MiniSql.Parser.Refusal
