import BoundSql.Options.Override
import BoundSql.Trace.Traced

/-!
# Reporting changes of options

A successful reconfiguration is reported with the table and the dialect it results
in; a refused one is not.
-/

namespace BoundSql.Options

/-- The options with overrides applied, reporting the change. -/
def reconfigured (o : Options) (overrides : Overrides) : Traced ConfigError Options := do
  let next ← Traced.ofExcept (o.reconfigure overrides)
  Traced.log (.reconfigured next.table next.dialect)
  return next

end BoundSql.Options
