import Unclosed.Standard.Package

/-!
The package `database/sql`: databases.
-/

namespace Unclosed

def StandardPackage.sql : StandardPackage := ⟨"database/sql", "sql.go", ofLines
  ["package sql",
   "",
   "import \"context\"",
   "",
   "var ErrNoRows error",
   "",
   "type DB struct \x7b",
   "\tdriverName string",
   "\x7d",
   "",
   "func Open(driverName, dataSourceName string) (*DB, error)",
   "",
   "func (db *DB) Close() error",
   "",
   "func (db *DB) Ping() error",
   "",
   "func (db *DB) PingContext(ctx context.Context) error",
   "",
   "func (db *DB) Exec(query string, args ...any) (Result, error)",
   "",
   "func (db *DB) ExecContext(ctx context.Context, query string, args ...any) (Result, error)",
   "",
   "func (db *DB) Query(query string, args ...any) (*Rows, error)",
   "",
   "func (db *DB) QueryContext(ctx context.Context, query string, args ...any) (*Rows, error)",
   "",
   "func (db *DB) QueryRow(query string, args ...any) *Row",
   "",
   "func (db *DB) QueryRowContext(ctx context.Context, query string, args ...any) *Row",
   "",
   "func (db *DB) Prepare(query string) (*Stmt, error)",
   "",
   "func (db *DB) Begin() (*Tx, error)",
   "",
   "func (db *DB) Conn(ctx context.Context) (*Conn, error)",
   "",
   "type Result interface \x7b",
   "\tLastInsertId() (int64, error)",
   "\tRowsAffected() (int64, error)",
   "\x7d",
   "",
   "type Rows struct \x7b",
   "\tclosed bool",
   "\x7d",
   "",
   "func (rs *Rows) Next() bool",
   "",
   "func (rs *Rows) Scan(dest ...any) error",
   "",
   "func (rs *Rows) Err() error",
   "",
   "func (rs *Rows) Close() error",
   "",
   "type Row struct \x7b",
   "\terr error",
   "\x7d",
   "",
   "func (r *Row) Scan(dest ...any) error",
   "",
   "func (r *Row) Err() error",
   "",
   "type Stmt struct \x7b",
   "\tquery string",
   "\x7d",
   "",
   "func (s *Stmt) Exec(args ...any) (Result, error)",
   "",
   "func (s *Stmt) Query(args ...any) (*Rows, error)",
   "",
   "func (s *Stmt) QueryRow(args ...any) *Row",
   "",
   "func (s *Stmt) Close() error",
   "",
   "type Tx struct \x7b",
   "\tdone bool",
   "\x7d",
   "",
   "func (tx *Tx) Commit() error",
   "",
   "func (tx *Tx) Rollback() error",
   "",
   "func (tx *Tx) Exec(query string, args ...any) (Result, error)",
   "",
   "func (tx *Tx) Query(query string, args ...any) (*Rows, error)",
   "",
   "type Conn struct \x7b",
   "\tdb *DB",
   "\x7d",
   "",
   "func (c *Conn) Close() error"]⟩

end Unclosed
