import Settle.CommandLine.Answer
import Settle.Proofs.Limiter.Delays

/-! # The limits that are shown

The settings command shows one line for the standard rate and one for each listed action. The line
for the standard rate looks at the sign of the rate, the others at nothing, while the limiter drops
rates that are not finite and raises low ones, and nobody waits for a bucket of so many tokens that
one less is rounded back up. So the lines tell the limits in effect for the rates in between, and
the line for the standard rate also where there is no rate above zero. -/

namespace Settle

/-! ## The limiter of the settings -/

namespace Limiter

theorem overrides_withLimits (l : Limiter) (rates : List (String × Binary64)) :
    (l.withLimits rates).overrides = rates.reverse ++ l.overrides := by
  induction rates generalizing l with
  | nil => rfl
  | cons entry rates ih =>
      rw [List.reverse_cons, List.append_assoc]
      exact ih (l.withLimit entry.1 entry.2)

theorem standard_withLimits (l : Limiter) (rates : List (String × Binary64)) :
    (l.withLimits rates).standard = l.standard := by
  induction rates generalizing l with
  | nil => rfl
  | cons entry rates ih => exact ih (l.withLimit entry.1 entry.2)

end Limiter

namespace RateSettings

variable {s : RateSettings} {action : String} {rate : Binary64}

theorem overrides_limiter (s : RateSettings) : s.limiter.overrides = s.actions.reverse := by
  rw [limiter, Limiter.overrides_withLimits]
  exact List.append_nil _

theorem limitFor_of_mem (hnodup : (s.actions.map Prod.fst).Nodup)
    (h : (action, rate) ∈ s.actions) : s.limiter.limitFor action = rate := by
  obtain ⟨front, back, hsplit⟩ := List.append_of_mem h
  have hlater : action ∉ back.map Prod.fst := by
    rw [hsplit, List.map_append, List.map_cons] at hnodup
    exact (List.nodup_cons.mp (List.nodup_append.mp hnodup).2.1).1
  have hlookup : s.limiter.overrides.lookup action = some rate := by
    rw [overrides_limiter, hsplit, List.reverse_append, List.reverse_cons, List.append_assoc,
      List.lookup_append, List.lookup_eq_none_iff.mpr, Option.none_or]
    · exact List.lookup_cons_self
    · intro entry hentry
      have hne : action ≠ entry.1 := by
        rintro rfl
        exact hlater (List.mem_map_of_mem (List.mem_reverse.mp hentry))
      simpa using hne
  rw [Limiter.limitFor, hlookup, Option.getD_some]

theorem limitFor_of_not_mem (h : action ∉ s.actions.map Prod.fst) :
    s.limiter.limitFor action = s.standard := by
  have hlookup : s.limiter.overrides.lookup action = none := by
    rw [overrides_limiter, List.lookup_eq_none_iff]
    intro entry hentry
    have hne : action ≠ entry.1 := by
      rintro rfl
      exact h (List.mem_map_of_mem (List.mem_reverse.mp hentry))
    simpa using hne
  rw [Limiter.limitFor, hlookup, Option.getD_none]
  exact Limiter.standard_withLimits _ _

end RateSettings

namespace CommandLine

open Binary64 (undiminished)
open Limiter (lowestRate)

variable {l : Limiter} {action line : String} {rate : Binary64} {around : Surroundings}
  {s : Settings}

/-! ## Lines -/

/-- A line shows that there is no limit. -/
def SaysUnlimited (line : String) : Prop := ∃ front, line = front ++ " unlimited"

/-- A line shows a rate, and may say that it is meant for each action. -/
def ShowsRate (line : String) (rate : Binary64) : Prop :=
  ∃ front, line = front ++ " " ++ rate.text ++ "/s" ∨
    line = front ++ " " ++ rate.text ++ "/s per action"

/-- A line that is written for a rate tells the limit in effect for an action: it says "unlimited"
if and only if the action never waits, and else it shows the rate at which the action's bucket
fills. -/
structure TellsLimit (l : Limiter) (action line : String) (rate : Binary64) : Prop where
  unlimited_iff : SaysUnlimited line ↔ l.NeverDelays action
  shows : ¬ SaysUnlimited line → ShowsRate line rate ∧ l.FillsAt action rate

theorem getLast?_toList_append {front back : String} {c : Char}
    (h : back.toList.getLast? = some c) : (front ++ back).toList.getLast? = some c := by
  rw [String.toList_append, List.getLast?_append, h, Option.some_or]

theorem getLast?_of_saysUnlimited (h : SaysUnlimited line) : line.toList.getLast? = some 'd' := by
  obtain ⟨front, rfl⟩ := h
  exact getLast?_toList_append rfl

theorem not_saysUnlimited_of_showsRate (h : ShowsRate line rate) : ¬ SaysUnlimited line := by
  intro hsays
  have hd := getLast?_of_saysUnlimited hsays
  obtain ⟨front, hshows | hshows⟩ := h
  · have hs : line.toList.getLast? = some 's' := by
      rw [hshows]
      exact getLast?_toList_append rfl
    exact absurd (hd.symm.trans hs) (by decide)
  · have hn : line.toList.getLast? = some 'n' := by
      rw [hshows]
      exact getLast?_toList_append rfl
    exact absurd (hd.symm.trans hn) (by decide)

theorem showsRate_actionRateLine (action : String) (rate : Binary64) :
    ShowsRate (actionRateLine action rate) rate :=
  ⟨"  " ++ padRight 32 action, .inl rfl⟩

theorem showsRate_standardRateLine (h : 0 < rate) : ShowsRate (standardRateLine rate) rate := by
  have hfront : "  default" ++ " " = "  default " := rfl
  have hshown : shownRate? rate = some rate := if_pos h
  unfold standardRateLine
  rw [hshown]
  refine ⟨"  default", .inr ?_⟩
  rw [hfront]

theorem saysUnlimited_standardRateLine (h : ¬ 0 < rate) :
    SaysUnlimited (standardRateLine rate) := by
  have hshown : shownRate? rate = none := if_neg h
  unfold standardRateLine
  rw [hshown]
  exact ⟨"  default", rfl⟩

/-! ## Limits in effect -/

/-- A rate that is shown is in effect if and only if the limiter does not raise it and its bucket
can lose a token. -/
theorem tellsLimit_iff_of_showsRate (hlimit : l.limitFor action = rate)
    (hshows : ShowsRate line rate) :
    TellsLimit l action line rate ↔ lowestRate ≤ rate ∧ rate < undiminished := by
  have hsays := not_saysUnlimited_of_showsRate hshows
  rw [← hlimit, ← Limiter.delays_and_fillsAt_iff, hlimit]
  constructor
  · intro h
    exact ⟨fun hnever => hsays (h.unlimited_iff.mpr hnever), (h.shows hsays).2⟩
  · rintro ⟨hdelays, hfills⟩
    exact ⟨iff_of_false hsays hdelays, fun _ => ⟨hshows, hfills⟩⟩

theorem tellsLimit_of_not_pos (hlimit : l.limitFor action = rate) (h : ¬ 0 < rate) :
    TellsLimit l action (standardRateLine rate) rate := by
  have hsays := saysUnlimited_standardRateLine h
  have hnever : l.NeverDelays action := by
    rw [Limiter.neverDelays_iff, hlimit]
    exact fun hlimited => h hlimited.1
  exact ⟨iff_of_true hsays hnever, fun hnot => absurd hsays hnot⟩

/-- What the settings command shows of the limits: its lines, and which of them tell the limits in
effect. -/
structure LimitLines (s : RateSettings) (lines : List String) : Prop where
  shown : "rate limit:" :: standardRateLine s.standard ::
    s.actions.map (fun (action, rate) => actionRateLine action rate) ++ ["extra error codes:"] <:+:
      lines
  others : ∀ action ∉ s.actions.map Prod.fst,
    (TellsLimit s.limiter action (standardRateLine s.standard) s.standard ↔
      (0 < s.standard → lowestRate ≤ s.standard ∧ s.standard < undiminished))
  listed : ∀ action rate, (action, rate) ∈ s.actions →
    (TellsLimit s.limiter action (actionRateLine action rate) rate ↔
      lowestRate ≤ rate ∧ rate < undiminished)

/-- The line of a listed action tells the limit in effect for the rates from the lowest one up to
those that no bucket falls below, and for no others; the line for all other actions does for these
rates and for those that are not above zero. -/
theorem config_limitLines (hsettings : around.settings = .ok s)
    (hnodup : (s.rates.actions.map Prod.fst).Nodup) :
    LimitLines s.rates (Command.config.answer around).lines where
  shown := by
    have hlines : (Command.config.answer around).lines = settingsLines around.place s := by
      rw [Command.answer, hsettings]
    rw [hlines, settingsLines]
    simp [List.infix_cons_iff]
  others action haction := by
    have hlimit := RateSettings.limitFor_of_not_mem haction
    by_cases h : 0 < s.rates.standard
    · rw [tellsLimit_iff_of_showsRate hlimit (showsRate_standardRateLine h), imp_iff_right h]
    · exact iff_of_true (tellsLimit_of_not_pos hlimit h) fun hpos => absurd hpos h
  listed action rate hmem :=
    tellsLimit_iff_of_showsRate (RateSettings.limitFor_of_mem hnodup hmem)
      (showsRate_actionRateLine action rate)

/-- No standard limit, a listed rate below the lowest one, and a listed action without a limit. -/
def liftedSettings : Settings :=
  { rates := ⟨.infinite false, [("CreateDisk", 1 / 10000), ("GetDisk", 0)]⟩ }

def liftedSurroundings : Surroundings where
  place := "cloudrecon/config.toml"
  settings := .ok liftedSettings
  file := fun _ => .error "no such file"

theorem config_limitLines_lifted :
    liftedSurroundings.settings = .ok liftedSettings ∧
      (liftedSettings.rates.actions.map Prod.fst).Nodup ∧
      LimitLines liftedSettings.rates (Command.config.answer liftedSurroundings).lines := by
  have hnodup : (liftedSettings.rates.actions.map Prod.fst).Nodup := by decide
  exact ⟨rfl, hnodup, config_limitLines rfl hnodup⟩

/-- Two lines show rates for actions that never wait, and one a rate that is not the bucket's. -/
theorem liftedLines_not_in_effect :
    ["rate limit:", "  default inf/s per action",
        "  CreateDisk                       0.0001/s",
        "  GetDisk                          0/s", "extra error codes:"] <:+:
        (Command.config.answer liftedSurroundings).lines ∧
      ¬ SaysUnlimited "  default inf/s per action" ∧
      liftedSettings.rates.limiter.NeverDelays "ListDisks" ∧
      liftedSettings.rates.limiter.FillsAt "CreateDisk" (1 / 1000) ∧
      ¬ SaysUnlimited "  GetDisk                          0/s" ∧
      liftedSettings.rates.limiter.NeverDelays "GetDisk" := by
  refine ⟨by decide +kernel, ?_, ?_, ?_, ?_, ?_⟩
  · exact fun h => absurd (getLast?_of_saysUnlimited h) (by decide)
  · exact Limiter.neverDelays_iff.mpr (by decide +kernel)
  · exact Limiter.fillsAt_iff.mpr (by decide +kernel)
  · exact fun h => absurd (getLast?_of_saysUnlimited h) (by decide)
  · exact Limiter.neverDelays_iff.mpr (by decide +kernel)

end CommandLine

end Settle
