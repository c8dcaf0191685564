import Mathlib.Data.List.Induction
import Packaging.Proofs.Comparison

/-! Overrides laid over attributes one after the other. Each attribute is that of the last layer
that gives it, so layers can be joined into one before they are laid over anything.
-/

namespace Packaging

-----------------------------------------------------------------------------------------
-- Layers that are joined
-----------------------------------------------------------------------------------------

/-- Both overrides in one: each attribute as `second` gives it, or else as `first` does. -/
def Overrides.followedBy (first second : Overrides) : Overrides where
  specfilePath := second.specfilePath.or first.specfilePath
  syncedFiles := second.syncedFiles.or first.syncedFiles
  distGitNamespace := second.distGitNamespace.or first.distGitNamespace
  projectUrl := second.projectUrl.or first.projectUrl
  projectName := second.projectName.or first.projectName
  downstreamUrl := second.downstreamUrl.or first.downstreamUrl
  downstreamName := second.downstreamName.or first.downstreamName
  distGitBaseUrl := second.distGitBaseUrl.or first.distGitBaseUrl
  tarballCommand := second.tarballCommand.or first.tarballCommand
  versionCommand := second.versionCommand.or first.versionCommand
  actions := second.actions.or first.actions
  projectRef := second.projectRef.or first.projectRef
  gpgKeys := second.gpgKeys.or first.gpgKeys
  createPullRequest := second.createPullRequest.or first.createPullRequest
  specSourceId := second.specSourceId.or first.specSourceId
  tagTemplate := second.tagTemplate.or first.tagTemplate
  patchIgnorePaths := second.patchIgnorePaths.or first.patchIgnorePaths
  notifications := second.notifications.or first.notifications

theorem Attribute.given_followedBy (a : Attribute) (first second : Overrides)
    : a.given (first.followedBy second) = (a.given second).or (a.given first) := by
  cases a <;> rfl

namespace Overrides

@[simp] theorem empty_followedBy (o : Overrides)
    : followedBy {} o = o := by
  apply Attribute.overrides_ext
  intro a
  rw [a.given_followedBy, show a.given {} = none from a.given_start, Option.or_none]

@[simp] theorem followedBy_self (o : Overrides)
    : o.followedBy o = o := by
  apply Attribute.overrides_ext
  intro a
  rw [a.given_followedBy, Option.or_self]

end Overrides

-----------------------------------------------------------------------------------------
-- Attributes under layers
-----------------------------------------------------------------------------------------

namespace Attributes

/-- Overrides that give nothing leave a copy, without the derived URL. -/
theorem overlay_empty (x : Attributes)
    : x.overlay {} = x.plain := by
  refine Attribute.attributes_ext (fun a => ?_) rfl
  rw [a.value_overlay, show a.given {} = none from a.given_start, Option.map_none, Option.none_or,
    a.value_plain]

/-- Two layers are as good as one that joins them. -/
theorem overlay_overlay (x : Attributes) (first second : Overrides)
    : (x.overlay first).overlay second = x.overlay (first.followedBy second) := by
  refine Attribute.attributes_ext (fun a => ?_) rfl
  simp only [a.value_overlay, a.given_followedBy]
  cases a.given second with
  | none => simp only [Option.map_none, Option.none_or]
  | some data => simp only [Option.map_some, Option.some_or]

/-- Layers above a first one are joined to it. By induction over the layers. -/
theorem foldl_overlay (x : Attributes) (first : Overrides) (rest : List Overrides)
    : rest.foldl overlay (x.overlay first) = x.overlay (rest.foldl Overrides.followedBy first) := by
  induction rest generalizing first with
  | nil => rfl
  | cons second rest ih => rw [List.foldl_cons, overlay_overlay, ih, List.foldl_cons]

end Attributes

/-- How data of an attribute comes out of layers: settled data of the last of them that gives it,
or what was there below when none does.
-/
inductive Attribute.Layered (a : Attribute) (below : Option a.kind.Data) (layers : List Overrides)
    : Option a.kind.Data → Prop where
  | given {before after : List Overrides} {o : Overrides} {data : a.kind.Data}
      (split : layers = before ++ o :: after) (gives : a.given o = some data)
      (last : ∀ later ∈ after, a.given later = none)
      : a.Layered below layers (some (a.settle data))
  | inherited (none : ∀ o ∈ layers, a.given o = none)
      : a.Layered below layers below

/-- A further layer decides where it gives the attribute, and else nothing changes. -/
theorem Attribute.Layered.append {a : Attribute} {below result : Option a.kind.Data}
    {layers : List Overrides} (layered : a.Layered below layers result) (o : Overrides)
    : a.Layered below (layers ++ [o]) (((a.given o).map a.settle).or result) := by
  cases gives : a.given o with
  | some data => exact .given rfl gives (by simp)
  | none =>
      rw [Option.map_none, Option.none_or]
      cases layered with
      | @given before after first data split held last =>
          have whole : layers ++ [o] = before ++ first :: (after ++ [o]) := by simp [split]
          refine .given whole held fun later member => ?_
          rcases List.mem_append.mp member with earlier | same
          · exact last later earlier
          · exact List.mem_singleton.mp same ▸ gives
      | inherited none =>
          refine .inherited fun other member => ?_
          rcases List.mem_append.mp member with earlier | same
          · exact none other earlier
          · exact List.mem_singleton.mp same ▸ gives

/-- Every attribute comes out of layers in this way. By induction over the layers, the last one
first.
-/
theorem Attribute.layered_foldl_overlay (a : Attribute) (base : Attributes)
    (layers : List Overrides)
    : a.Layered (a.value base) layers (a.value (layers.foldl Attributes.overlay base)) := by
  induction layers using List.reverseRecOn with
  | nil => exact .inherited (by simp)
  | append_singleton layers o ih =>
      rw [List.foldl_append, List.foldl_cons, List.foldl_nil, a.value_overlay]
      exact ih.append o

-----------------------------------------------------------------------------------------
-- Layers in a run
-----------------------------------------------------------------------------------------

namespace Attributes

/-- Requests that lay each layer over what the request before it made, from a place on. -/
def layering (place : Nat) : List Overrides → List Operation
  | [] => []
  | o :: rest => ⟨place, .overlay o⟩ :: layering (place + 1) rest

/-- Layers make new attributes and leave those below them as they are. By induction over the layers,
each of which is laid over the last attributes so far.
-/
theorem map_now_run_layering (all : List Kept) (kept : Kept) (layers : List Overrides)
    : (run (all ++ [kept]) (layering all.length layers)).map Kept.now
      = all.map Kept.now ++ layers.scanl overlay kept.now := by
  induction layers generalizing all kept with
  | nil => simp [run, layering]
  | cons o rest ih =>
      have step : perform (all ++ [kept]) ⟨all.length, .overlay o⟩
          = (all ++ [kept.after (.overlay o)]) ++ [{ now := kept.now.overlay o }] := by
        simp [perform, Request.made]
      have above := ih (all ++ [kept.after (.overlay o)]) { now := kept.now.overlay o }
      rw [List.length_append, List.length_singleton] at above
      rw [layering, run, List.foldl_cons, step, ← run, above, List.scanl_cons]
      simp [Kept.after, Request.effect]

/-- Layers over any attributes, settled or not. Each attribute is that of the last layer that gives
it, whole and settled, or else that of the base, be it empty. Two layers are as good as the one that
joins them, and so are all of them. Nothing comes of a layer that gives nothing, but that no URL is
derived any more, nor of a layer that is repeated. In a run the base and what is made by each layer
stay as they are.
-/
theorem overlay_layers (base : Attributes) (layers : List Overrides)
    : (∀ a : Attribute, a.Layered (a.value base) layers (a.value (layers.foldl overlay base)))
      ∧ (∀ first second : Overrides,
        (base.overlay first).overlay second = base.overlay (first.followedBy second)
        ∧ ∀ a : Attribute,
          a.given (first.followedBy second) = (a.given second).or (a.given first))
      ∧ (layers.foldl overlay base).plain = base.overlay (layers.foldl Overrides.followedBy {})
      ∧ base.overlay {} = base.plain
      ∧ (base.overlay {}).same base
      ∧ (∀ o : Overrides, (base.overlay o).overlay o = base.overlay o)
      ∧ (∀ o : Overrides, ((layers ++ [o]).foldl overlay base).derivedUrl = none)
      ∧ (run [{ now := base }] (layering 0 layers)).map Kept.now = layers.scanl overlay base := by
  refine ⟨fun a => a.layered_foldl_overlay base layers, fun first second => ?_, ?_,
    base.overlay_empty, ?_, fun o => ?_, fun o => ?_, map_now_run_layering [] _ layers⟩
  · exact ⟨overlay_overlay base first second, fun a => a.given_followedBy first second⟩
  · cases layers with
    | nil => exact base.overlay_empty.symm
    | cons first rest =>
        rw [List.foldl_cons, List.foldl_cons, Overrides.empty_followedBy, foldl_overlay]
        rfl
  · rw [same_iff, overlay_empty]
    rfl
  · rw [overlay_overlay, Overrides.followedBy_self]
  · rw [List.foldl_append]
    rfl

/-- A namespace that a lower layer empties is the built-in one and not that of the base. -/
example
    : ([{ distGitNamespace := some "" }, {}].foldl overlay
        { distGitNamespace := "modules" }).distGitNamespace = "rpms" := by
  rfl

end Attributes

end Packaging
