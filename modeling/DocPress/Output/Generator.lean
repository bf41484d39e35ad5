import DocPress.Output.Artifact
import DocPress.Storage.Disk

/-!
# Generators

A generator makes the artifact of a project.  It may write to the disk; a name
that is new for every run keeps the files of one run apart from all others.
-/

namespace DocPress

/-- A maker of artifacts in one format. -/
structure Generator where
  /-- The name under which error reports mention the generator. -/
  title : Text
  format : Text
  run : (runName : Text) → Project → DiskTask GeneratorFailure Artifact

end DocPress
