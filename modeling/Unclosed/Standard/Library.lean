import Unclosed.Standard.BufIo
import Unclosed.Standard.Bytes
import Unclosed.Standard.Context
import Unclosed.Standard.Errors
import Unclosed.Standard.Fmt
import Unclosed.Standard.Http
import Unclosed.Standard.Io
import Unclosed.Standard.IoUtil
import Unclosed.Standard.Json
import Unclosed.Standard.Log
import Unclosed.Standard.Os
import Unclosed.Standard.Sql
import Unclosed.Standard.Strings
import Unclosed.Standard.Sync
import Unclosed.Standard.Time

/-!
The packages of the standard library whose declarations are known.
-/

namespace Unclosed.StandardPackage

def all : List StandardPackage :=
  [io, ioUtil, os, time, context, errors, fmt, strings, bytes, bufIo, json, sql, http, sync,
   log]

def find? (path : String) : Option StandardPackage := all.find? fun package => package.path == path

end Unclosed.StandardPackage
