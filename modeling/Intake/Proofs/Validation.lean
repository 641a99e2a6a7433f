import Intake.Rehearsal.Run
import Intake.Proofs.Strategies

/-!
# Validation — which configurations make a monitor

Validation reads the patterns of a configuration by the rule of the filters, so that a listing is
built exactly from the settings that pass (`Listing.exists_ofConfig_iff`).  Of the key strategy it
only asks that it is not blank (`Config.validate_eq_ok_iff`).  So it is left to the strategy whether
a monitor can be opened for a configuration that passes (`Rehearsal.openConfigured_of_validate`):
one that is not legible is refused only then.
-/

namespace Intake

/-! ## 1. Patterns and listings -/

theorem patternFault_eq_ok_iff (field : String) {text : Option String} :
    patternFault field text = .ok () ↔ ∀ t ∈ text, ∃ p, Pattern.parse t = .ok p := by
  cases text with
  | none => exact ⟨nofun, fun _ => rfl⟩
  | some t =>
    simp only [patternFault, Option.mem_def, Option.some.injEq, forall_eq']
    cases Pattern.parse t with
    | ok p => exact ⟨fun _ => ⟨p, rfl⟩, fun _ => rfl⟩
    | error fault => cases fault <;> exact ⟨nofun, nofun⟩

theorem NamePattern.exists_parseOptional_iff {text : Option String} :
    (∃ p, parseOptional text = .ok p) ↔ ∀ t ∈ text, ∃ p, Pattern.parse t = .ok p := by
  cases text with
  | none => exact ⟨nofun, fun _ => ⟨none, rfl⟩⟩
  | some t =>
    simp only [Option.mem_def, Option.some.injEq, forall_eq']
    show (∃ p, (NamePattern.parse t).map some = .ok p) ↔ _
    unfold NamePattern.parse
    cases Pattern.parse t with
    | ok p => exact ⟨fun _ => ⟨p, rfl⟩, fun _ => ⟨_, rfl⟩⟩
    | error fault =>
      cases fault <;> constructor <;> rintro ⟨_, h⟩ <;> cases h

namespace ListingConfig

theorem validate_eq_ok_iff {c : ListingConfig} :
    c.validate = .ok () ↔ c.root.isEmpty = false ∧
      (∀ t ∈ c.includePattern, ∃ p, Pattern.parse t = .ok p) ∧
        ∀ t ∈ c.excludePattern, ∃ p, Pattern.parse t = .ok p := by
  have hpatterns : ((patternFault "listing.include_pattern" c.includePattern).bind fun _ =>
      patternFault "listing.exclude_pattern" c.excludePattern) = .ok () ↔
        (∀ t ∈ c.includePattern, ∃ p, Pattern.parse t = .ok p) ∧
          ∀ t ∈ c.excludePattern, ∃ p, Pattern.parse t = .ok p := by
    rw [bind_eq_ok_iff, ← patternFault_eq_ok_iff "listing.include_pattern",
      ← patternFault_eq_ok_iff "listing.exclude_pattern"]
    exact ⟨fun ⟨_, h⟩ => h, fun h => ⟨(), h⟩⟩
  rw [← hpatterns]
  unfold validate
  cases c.root.isEmpty with
  | true => exact ⟨nofun, fun h => nomatch h.1⟩
  | false => exact ⟨fun h => ⟨rfl, h⟩, fun h => h.2⟩

end ListingConfig

/-- **A listing is built** exactly from the settings that pass. -/
theorem Listing.exists_ofConfig_iff {c : ListingConfig} :
    (∃ l, ofConfig c = .ok l) ↔ c.validate = .ok () := by
  constructor
  · rintro ⟨l, h⟩
    obtain ⟨_, hvalid, -⟩ := bind_eq_ok_iff.1 h
    exact hvalid
  · intro hvalid
    obtain ⟨-, hrequired, hrefused⟩ := ListingConfig.validate_eq_ok_iff.1 hvalid
    obtain ⟨required, hrequired⟩ := NamePattern.exists_parseOptional_iff.2 hrequired
    obtain ⟨refused, hrefused⟩ := NamePattern.exists_parseOptional_iff.2 hrefused
    have hnames : Filter.byName c.includePattern c.excludePattern =
        .ok (.names required refused) := by
      unfold Filter.byName
      rw [hrequired, hrefused]
      rfl
    unfold ofConfig
    rw [hvalid, hnames]
    cases c.includePattern.isSome || c.excludePattern.isSome <;> exact ⟨_, rfl⟩

/-! ## 2. Configurations that pass -/

namespace Config

theorem validate_eq_ok_iff {c : Config} :
    c.validate = .ok () ↔ (∀ t ∈ c.positiveTimes, t.2 ≠ 0) ∧
      ¬KeyPolicy.Blank c.partitionKeyStrategy.toList ∧ c.listing.validate = .ok () := by
  have htimes : c.positiveTimes.find? (·.2 == 0) = none ↔ ∀ t ∈ c.positiveTimes, t.2 ≠ 0 := by
    rw [List.find?_eq_none]
    simp only [beq_iff_eq, ne_eq]
  have hblank : (Text.trim c.partitionKeyStrategy.toList).isEmpty = true ↔
      KeyPolicy.Blank c.partitionKeyStrategy.toList := by
    rw [List.isEmpty_iff]
    exact Text.trim_eq_nil_iff
  rw [← htimes, ← hblank]
  unfold validate
  cases c.positiveTimes.find? (·.2 == 0) with
  | some t => exact ⟨nofun, fun h => nomatch h.1⟩
  | none =>
    cases (Text.trim c.partitionKeyStrategy.toList).isEmpty with
    | true => exact ⟨nofun, fun h => absurd rfl h.2.1⟩
    | false => exact ⟨fun h => ⟨rfl, nofun, h⟩, fun h => h.2.2⟩

/-- **Accepted configurations:** they pass, or come of a text or a file. -/
inductive Accepted (c : Config) : Prop
  | validated (h : c.validate = .ok ())
  | parsed {text : String} (h : Config.parse text = .ok c)
  | loaded {file : Option Bytes} (h : Config.load file = .ok c)

theorem validate_of_parse {text : String} {c : Config} (h : parse text = .ok c) :
    c.validate = .ok () := by
  unfold parse at h
  split at h
  next => cases h
  next d _ =>
    split at h
    next hvalid =>
      cases h
      exact hvalid
    next => cases h

/-- Whatever is accepted passes. -/
theorem Accepted.validate_eq {c : Config} (h : c.Accepted) : c.validate = .ok () := by
  cases h with
  | validated h => exact h
  | parsed h => exact validate_of_parse h
  | @loaded file h =>
    unfold load at h
    split at h
    next => cases h
    next =>
      split at h
      next => cases h
      next => exact validate_of_parse h

end Config

/-! ## 3. Monitors that are opened -/

namespace Rehearsal

variable {c : Config}

theorem Seat.configured_of_listing (hvalid : c.validate = .ok ()) {l : Listing}
    (hlisting : Listing.ofConfig c.listing = .ok l) :
    Seat.configured c = (KeyPolicy.parse c.partitionKeyStrategy).map fun policy =>
      ⟨.new c policy.keyOf Listing.name, {}, .real l (.ofConfig c.cleanup)⟩ := by
  unfold Seat.configured
  rw [hvalid, hlisting]
  cases KeyPolicy.parse c.partitionKeyStrategy <;> rfl

/-- A store that is not shut down lets every monitor in. -/
theorem openSeat_ok {r : Rehearsal} (h : r.store.closing = false) (seat : Seat) :
    (r.openSeat seat).2 = .ok r.seats.length := by
  unfold openSeat startStore Store.start
  cases hstarted : r.store.isStarted with
  | true => simp only [hstarted, if_true]
  | false =>
    simp only [hstarted, h, Bool.false_eq_true, if_false, bind, Except.bind, pure, Except.pure]

/-- A configuration that passes is judged by its strategy. -/
theorem openConfigured_of_validate (r : Rehearsal) (hvalid : c.validate = .ok ()) :
    (∃ cause, KeyPolicy.parse c.partitionKeyStrategy = .error cause ∧
      r.openConfigured c = (r, .error cause)) ∨
    ∃ policy seat, KeyPolicy.parse c.partitionKeyStrategy = .ok policy ∧
      r.openConfigured c = r.openSeat seat := by
  obtain ⟨-, -, hlisting⟩ := Config.validate_eq_ok_iff.1 hvalid
  obtain ⟨l, hlisting⟩ := Listing.exists_ofConfig_iff.2 hlisting
  have hseat := Seat.configured_of_listing hvalid hlisting
  unfold openConfigured
  cases hparse : KeyPolicy.parse c.partitionKeyStrategy with
  | error cause =>
    rw [hparse] at hseat
    rw [hseat]
    exact .inl ⟨cause, rfl, rfl⟩
  | ok policy =>
    rw [hparse] at hseat
    rw [hseat]
    exact .inr ⟨policy, _, rfl, rfl⟩

end Rehearsal

/-- **What passes and what can be built.**  For every accepted configuration the listing is built.
    The key policy is built exactly if the strategy is legible, and so is a monitor opened on a
    store that is not shut down; otherwise it is refused for a fault of the configuration, and
    nothing is begun. -/
theorem Config.Accepted.opens_iff {c : Config} (h : c.Accepted) :
    (∃ l, Listing.ofConfig c.listing = .ok l) ∧
    ((∃ p, KeyPolicy.parse c.partitionKeyStrategy = .ok p) ↔
      KeyPolicy.Legible c.partitionKeyStrategy) ∧
    ∀ r : Rehearsal, r.store.closing = false →
      ((∃ i, (r.openConfigured c).2 = .ok i) ↔ KeyPolicy.Legible c.partitionKeyStrategy) ∧
      (¬KeyPolicy.Legible c.partitionKeyStrategy → ∃ fault,
        KeyPolicy.parse c.partitionKeyStrategy = .error (.config fault) ∧
          r.openConfigured c = (r, .error (.config fault))) := by
  have hvalid := h.validate_eq
  obtain ⟨-, -, hlisting⟩ := validate_eq_ok_iff.1 hvalid
  refine ⟨Listing.exists_ofConfig_iff.2 hlisting, KeyPolicy.exists_parse_iff _, ?_⟩
  intro r hopen
  rw [← KeyPolicy.exists_parse_iff]
  rcases r.openConfigured_of_validate hvalid with
    ⟨cause, hparse, hopened⟩ | ⟨policy, seat, hparse, hopened⟩
  · obtain ⟨fault, rfl⟩ : ∃ fault, cause = .config fault := by
      rcases KeyPolicy.parse_eq_error hparse with ⟨part, -, -, -, hcause⟩ | ⟨-, hcause⟩
      · exact ⟨_, hcause⟩
      · exact ⟨_, hcause⟩
    rw [hparse, hopened]
    exact ⟨⟨nofun, nofun⟩, fun _ => ⟨fault, rfl, rfl⟩⟩
  · rw [hparse, hopened, Rehearsal.openSeat_ok hopen]
    exact ⟨⟨fun _ => ⟨policy, rfl⟩, fun _ => ⟨_, rfl⟩⟩, fun hnone => absurd ⟨policy, rfl⟩ hnone⟩

/-- A strategy with an alias and blanks. -/
theorem Config.Accepted.opens_iff_alias :
    let c : Config := { partitionKeyStrategy := " name + HASH" }
    c.Accepted ∧ (Rehearsal.onStore 0).store.closing = false ∧
      ∃ i, ((Rehearsal.onStore 0).openConfigured c).2 = .ok i := by
  intro c
  have haccepted : c.Accepted := .validated (by decide)
  have hopen : (Rehearsal.onStore 0).store.closing = false := rfl
  obtain ⟨-, hpolicy, hmonitor⟩ := haccepted.opens_iff
  have hparse : KeyPolicy.parse " name + HASH" = .ok ⟨[.name, .digest]⟩ := by rfl
  exact ⟨haccepted, hopen, (hmonitor _ hopen).1.2 (hpolicy.1 ⟨_, hparse⟩)⟩

/-- **A configuration that is read and passes, and no monitor:** its strategy names an attribute
    that does not exist. -/
theorem Config.accepted_unopened :
    let c : Config := { partitionKeyStrategy := "inode" }
    Config.parse "partition_key_strategy = 'inode'" = .ok c ∧ c.validate = .ok () ∧
      KeyPolicy.parse c.partitionKeyStrategy = .error (.config (.unknownAttribute "inode")) ∧
      (Rehearsal.onStore 0).store.closing = false ∧
      ((Rehearsal.onStore 0).openConfigured c).2 =
        .error (.config (.unknownAttribute "inode")) := by
  intro c
  have hread : (Toml.parse? "partition_key_strategy = 'inode'").bind ofJson? = some c := by
    decide +kernel
  have hvalid : c.validate = .ok () := by decide
  have hparse : Config.parse "partition_key_strategy = 'inode'" = .ok c := by
    unfold Config.parse
    rw [hread]
    simp only [hvalid]
  have hpolicy : KeyPolicy.parse "inode" = .error (.config (.unknownAttribute "inode")) := by rfl
  have hopened : ((Rehearsal.onStore 0).openConfigured { partitionKeyStrategy := "inode" }).2 =
      .error (.config (.unknownAttribute "inode")) := by rfl
  exact ⟨hparse, hvalid, hpolicy, rfl, hopened⟩

end Intake
