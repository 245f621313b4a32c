import ShaderCache.Compile.Job
import ShaderCache.Program.Reflection

/-!
# Versions

A version is what a program compiles to for one set of defines: the global scope, the entry
points under their export names, and their reflection. It draws its identifier when the entry
points have been gathered, so a failure after that uses the identifier up.
-/

set_option autoImplicit false

namespace ShaderCache

structure CompiledVersion (B : Backend) where
  id : UInt64
  globalScope : B.Component
  entryPoints : List B.Component
  reflection : ProgramReflection B.Reflection

/-- The front end or the backend rejected the program. -/
inductive CompileFailure where
  | rejected

namespace CompiledVersion

variable {B : Backend}

def exported (entry : EntryPoint) (handle : B.Component) : Job B CompileFailure B.Component :=
  if entry.exportName = entry.name then
    pure handle
  else do
    let renamed ← Job.call (B.rename handle entry.exportName)
    Job.orFail .rejected
      (fun reason => s!"Renaming entry point `{entry.name}` failed: {reason}") renamed

/-- Gives every entry point the handle at its position. -/
def gather : List EntryPoint → List B.Component → Job B CompileFailure (List B.Component)
  | [], _ => pure []
  | entry :: _, [] =>
      Job.failWith .rejected s!"Compiler did not produce entry point `{entry.name}`."
  | entry :: rest, handle :: handles => do
      let own ← exported entry handle
      let others ← gather rest handles
      return own :: others

def job (desc : ProgramDesc) (request : CompileRequest) :
    Job B CompileFailure (CompiledVersion B) := do
  let output ← Job.call (B.compile request)
  Job.note output.diagnostics
  match output.program with
  | none => Job.stop .rejected
  | some compiled => do
      let entryPoints ← gather desc.entryPoints compiled.entryPoints
      let id ← Job.drawVersionId
      let handle ← Job.composeAndReflect .rejected (compiled.globalScope :: entryPoints)
      return ⟨id, compiled.globalScope, entryPoints, .create id desc handle⟩

end CompiledVersion

end ShaderCache
