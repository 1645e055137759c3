import SchemaCompiler.Log.Notice
import SchemaCompiler.Text.Quoted

/-!
# Lines of the log

A notice as one entry of the log: its level, the part of the compiler that gives it, its message,
and its values with their names.
-/

namespace SchemaCompiler

/-- A value as the log shows it. -/
def NoticeValue.shown : NoticeValue → String
  | plain s => s
  | quoted s => Text.quoted s
  | count n => toString n

/-- A notice as the log shows it. -/
def Notice.line (notice : Notice) : String :=
  let fields := notice.fields.map fun field => " " ++ field.1 ++ "=" ++ field.2.shown
  notice.level.name ++ " " ++ notice.target ++ ": " ++ notice.message ++ String.join fields

end SchemaCompiler
