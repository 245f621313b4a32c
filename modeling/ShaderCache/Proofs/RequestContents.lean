import ShaderCache.Compile.Request

/-!
# What is in a request

A request for the compiler can fail to be made at two points: where its files are looked up, and
where its groups are declared. All else in it is read off the settings, the description and the
defines.
-/

set_option autoImplicit false

namespace ShaderCache

namespace CompileContext

variable {context : CompileContext} {desc : ProgramDesc} {defines : DefineList}

/-- Where the parts of a request come from. -/
structure Contents (context : CompileContext) (desc : ProgramDesc) (defines : DefineList)
    (sent : CompileRequest) : Prop where
  searchPaths : sent.searchPaths = context.resolver.searchPaths
  macros : sent.macros = context.macros desc defines
  flags : sent.flags = context.flags desc
  floatingPointMode : sent.floatingPointMode = CompileContext.floatingPointMode sent.flags
  debugInfo : sent.debugInfo =
    (context.settings.debugInfo || sent.flags.contains .generateDebugInfo)
  units : context.translationUnits desc = .ok sent.translationUnits
  entryPoints : declareGroups sent.translationUnits.length 0 0 desc.groups = .ok sent.entryPoints

theorem request_contents {sent : CompileRequest}
    (requested : context.request desc defines = .ok sent) : Contents context desc defines sent := by
  unfold request at requested
  cases units : context.translationUnits desc with
  | error error => simp [units, bind, Except.bind] at requested
  | ok found =>
      cases declares : declareGroups found.length 0 0 desc.groups with
      | error error => simp [units, declares, bind, Except.bind] at requested
      | ok declared =>
          simp only [units, declares, bind, Except.bind, Except.ok.injEq] at requested
          subst requested
          exact ⟨rfl, rfl, rfl, rfl, rfl, units, declares⟩

/-- What a request fails with is what one of the two steps fails with. -/
theorem request_error {error : ConfigurationError}
    (failed : context.request desc defines = .error error) :
    context.translationUnits desc = .error error ∨
      ∃ units, context.translationUnits desc = .ok units ∧
        declareGroups units.length 0 0 desc.groups = .error error := by
  unfold request at failed
  cases units : context.translationUnits desc with
  | error first =>
      simp only [units, bind, Except.bind, Except.error.injEq] at failed
      exact .inl (congrArg _ failed)
  | ok found =>
      cases declares : declareGroups found.length 0 0 desc.groups with
      | error second =>
          simp only [units, declares, bind, Except.bind, Except.error.injEq] at failed
          subst failed
          exact .inr ⟨found, rfl, declares⟩
      | ok declared => simp [units, declares, bind, Except.bind] at failed

end CompileContext

end ShaderCache
