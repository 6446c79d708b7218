import MiniSql.CString

set_option autoImplicit false

/-!
# The AST of a script and the errors of the program

The structures of `parser.h`.  A pointer the code tests against NULL is an
`Option`; a pointer it dereferences without a test is the string itself, so a
statement with a hole cannot be built.
-/

namespace MiniSql

/-- `QualifiedName`: an optional schema and a table. -/
structure QualifiedName where
  schema : Option Bytes
  table : Option Bytes
  deriving DecidableEq, Repr

/-- The operands of an enabled `WhereClause`. -/
structure WhereClause where
  column : Bytes
  value : Bytes
  deriving DecidableEq, Repr

/-- `InsertStatement`. -/
structure InsertStatement where
  target : QualifiedName
  columns : List Bytes
  values : List Bytes
  deriving DecidableEq, Repr

/-- `SelectStatement`; `where_` is present exactly when `where.enabled` is set. -/
structure SelectStatement where
  source : QualifiedName
  selectAll : Bool
  columns : List Bytes
  where_ : Option WhereClause
  deriving DecidableEq, Repr

/-- `Statement`, the tagged union of the two statement kinds. -/
inductive Statement where
  | insert (statement : InsertStatement)
  | select (statement : SelectStatement)
  deriving DecidableEq, Repr

/-- The table a statement is about. -/
def Statement.target : Statement → QualifiedName
  | .insert statement => statement.target
  | .select statement => statement.source

/-! ## Errors -/

/-- The failures that write a text into the `error` buffer. -/
inductive SqlError where
  /-- `read_text_file` cannot open its file -/
  | openFailed (path : Bytes)
  /-- every message of the form `... at line %d, column %d` but the next one -/
  | atPosition (message : String) (line column : Nat)
  | unexpectedCharacter (ch : Byte) (line column : Nat)
  | unterminatedBlockComment
  | tableNameEmpty
  /-- the path has already been freed and reset when the message is printed -/
  | schemaFileEmpty (path : Option Bytes)
  | insertCountMismatch
  | unknownInsertColumn (name : Bytes)
  | duplicateInsertColumn (name : Bytes)
  | unknownSelectColumn (name : Bytes)
  | unknownWhereColumn (name : Bytes)
  | rowColumnCountMismatch
  deriving DecidableEq, Repr

/-- ` at line %d, column %d`. -/
def positionText (line column : Nat) : Bytes :=
  ascii " at line " ++ decimal line ++ ascii ", column " ++ decimal column

/-- The text `snprintf` formats for an error. -/
def SqlError.text : SqlError → Bytes
  | .openFailed path => ascii "failed to open file: " ++ path
  | .atPosition message line column => ascii message ++ positionText line column
  | .unexpectedCharacter ch line column =>
      ascii "unexpected character '" ++ [ch] ++ ascii "'" ++ positionText line column
  | .unterminatedBlockComment => ascii "unterminated block comment"
  | .tableNameEmpty => ascii "table name is empty"
  | .schemaFileEmpty path =>
      ascii "schema file is empty: " ++ path.getD (ascii "(null)")
  | .insertCountMismatch => ascii "INSERT column count and value count do not match"
  | .unknownInsertColumn name => ascii "unknown column in INSERT: " ++ name
  | .duplicateInsertColumn name => ascii "duplicate column in INSERT: " ++ name
  | .unknownSelectColumn name => ascii "unknown column in SELECT: " ++ name
  | .unknownWhereColumn name => ascii "unknown column in WHERE clause: " ++ name
  | .rowColumnCountMismatch => ascii "row column count mismatch in data file"

/-- `SQL_ERROR_SIZE`. -/
def sqlErrorSize : Nat := 512

/-- The content of the `error` buffer after a failure. -/
def SqlError.buffer (e : SqlError) : Bytes := snprintf sqlErrorSize e.text

/-- The failures of a call when the system below the program may fail too. -/
inductive Failure where
  /-- an error the program finds by itself -/
  | sql (e : SqlError)
  | openForWritingFailed (path : Bytes)
  | writeFailed (path : Bytes)
  | openDataFailed (path : Bytes)
  | outOfMemory (task : String)
  | outOfMemoryReading (path : Bytes)
  deriving DecidableEq, Repr

/-- The text `snprintf` formats for a failure. -/
def Failure.text : Failure → Bytes
  | .sql e => e.text
  | .openForWritingFailed path => ascii "failed to open file for writing: " ++ path
  | .openDataFailed path => ascii "failed to open data file: " ++ path
  | .writeFailed path => ascii "failed to write file: " ++ path
  | .outOfMemory task => ascii "out of memory while " ++ ascii task
  | .outOfMemoryReading path => ascii "out of memory while reading: " ++ path

end MiniSql
