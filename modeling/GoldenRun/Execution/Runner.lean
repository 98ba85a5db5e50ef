import GoldenRun.Action

/-!
# Runners

The harness does not start programs itself: it asks a `Runner`.  A runner sees the request and the
workspace, may change the disk and its own state, and answers with the captured output or gives
up.  The working directory and the environment of the harness are out of its reach.
-/

namespace GoldenRun

/-- An outside party that runs commands; `σ` is what it remembers between requests. -/
abbrev Runner (σ : Type) := Request → Workspace → σ → Except Failure Captured × Disk × σ

end GoldenRun
