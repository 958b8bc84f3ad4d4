import AddonExchange.Text.Basic

namespace AddonExchange

/-- What an add-on is. -/
inductive Category where
  | unknown
  | core
  | campaign
  | scenario
  | hybridCampaign
  | multiplayerCampaign
  | multiplayerScenario
  | mapPack
  | era
  | faction
  | multiplayerModification
  | media
  | other
deriving DecidableEq

namespace Category

def all : List Category :=
  [unknown, core, campaign, scenario, hybridCampaign, multiplayerCampaign, multiplayerScenario,
    mapPack, era, faction, multiplayerModification, media, other]

def label : Category → String
  | unknown => "unknown"
  | core => "core"
  | campaign => "campaign"
  | scenario => "scenario"
  | hybridCampaign => "campaign_sp_mp"
  | multiplayerCampaign => "campaign_mp"
  | multiplayerScenario => "scenario_mp"
  | mapPack => "map_pack"
  | era => "era"
  | faction => "faction"
  | multiplayerModification => "mod_mp"
  | media => "media"
  | other => "other"

/-- The category of a label; a label that no category has is of the unknown one. -/
def ofLabel (text : Text) : Category :=
  (all.find? fun category => Text.ofString category.label == text).getD unknown

theorem ofLabel_label (category : Category) :
    ofLabel (Text.ofString category.label) = category := by
  cases category <;> decide +kernel

end Category

end AddonExchange
