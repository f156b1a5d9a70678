import ContractReads.Abi.Interface

/-!
# Known interfaces

The interfaces of the contracts that this library reads by name.  Functions and events stand
sorted by name.
-/

namespace ContractReads.Interface

/-- A parameter without components. -/
def simple (name type : String) : Param := ⟨name, type, []⟩

/-- A field that is written into a topic. -/
def indexed (name type : String) : EventInput := ⟨simple name type, true⟩

/-- A field that is written into the data. -/
def plain (name type : String) : EventInput := ⟨simple name type, false⟩

/-- The central store of addresses and numbers. -/
def storage : Interface where
  functions := [
    ⟨"getAddress", [simple "_key" "bytes32"], [simple "r" "address"]⟩,
    ⟨"getBool", [simple "_key" "bytes32"], [simple "r" "bool"]⟩,
    ⟨"getDeployedStatus", [], [simple "" "bool"]⟩,
    ⟨"getString", [simple "_key" "bytes32"], [simple "" "string"]⟩,
    ⟨"getUint", [simple "_key" "bytes32"], [simple "r" "uint256"]⟩]
  events := []

/-- The DAO of oracle members. -/
def trustedDao : Interface where
  functions := [
    ⟨"bootstrapMember", [simple "_id" "string", simple "_url" "string",
      simple "_nodeAddress" "address"], []⟩,
    ⟨"bootstrapSettingBool", [simple "_settingContractName" "string",
      simple "_settingPath" "string", simple "_value" "bool"], []⟩,
    ⟨"bootstrapSettingUint", [simple "_settingContractName" "string",
      simple "_settingPath" "string", simple "_value" "uint256"], []⟩,
    ⟨"getMemberAt", [simple "_index" "uint256"], [simple "" "address"]⟩,
    ⟨"getMemberCount", [], [simple "" "uint256"]⟩,
    ⟨"getMemberID", [simple "_nodeAddress" "address"], [simple "" "string"]⟩,
    ⟨"getMemberIsValid", [simple "_nodeAddress" "address"], [simple "" "bool"]⟩,
    ⟨"getMemberJoinedTime", [simple "_nodeAddress" "address"], [simple "" "uint256"]⟩,
    ⟨"getMemberMinRequired", [], [simple "" "uint256"]⟩,
    ⟨"getMemberUrl", [simple "_nodeAddress" "address"], [simple "" "string"]⟩,
    ⟨"version", [], [simple "" "uint8"]⟩]
  events := []

/-- What members of the DAO do: join, leave, challenge each other. -/
def trustedDaoActions : Interface where
  functions := [
    ⟨"actionChallengeDecide", [simple "_nodeAddress" "address"], []⟩,
    ⟨"actionChallengeMake", [simple "_nodeAddress" "address"], []⟩,
    ⟨"actionJoin", [], []⟩,
    ⟨"actionLeave", [simple "_rplBondRefundAddress" "address"], []⟩,
    ⟨"version", [], [simple "" "uint8"]⟩]
  events := [
    ⟨"ActionChallengeDecided", [indexed "nodeChallengedAddress" "address",
      indexed "nodeChallengeDeciderAddress" "address", plain "success" "bool",
      plain "time" "uint256"], false⟩,
    ⟨"ActionChallengeMade", [indexed "nodeChallengedAddress" "address",
      indexed "nodeChallengerAddress" "address", plain "time" "uint256"], false⟩,
    ⟨"ActionJoined", [indexed "nodeAddress" "address", plain "rplBondAmount" "uint256",
      plain "time" "uint256"], false⟩,
    ⟨"ActionKick", [indexed "nodeAddress" "address", plain "rplFineAmount" "uint256",
      plain "time" "uint256"], false⟩,
    ⟨"ActionLeave", [indexed "nodeAddress" "address", plain "rplBondAmount" "uint256",
      plain "time" "uint256"], false⟩]

/-- Proposals to the DAO. -/
def trustedDaoProposals : Interface where
  functions := [
    ⟨"proposalInvite", [simple "_id" "string", simple "_url" "string",
      simple "_nodeAddress" "address"], []⟩,
    ⟨"proposalKick", [simple "_nodeAddress" "address", simple "_rplFine" "uint256"], []⟩,
    ⟨"proposalLeave", [simple "_nodeAddress" "address"], []⟩,
    ⟨"proposalSettingBool", [simple "_settingContractName" "string",
      simple "_settingPath" "string", simple "_value" "bool"], []⟩,
    ⟨"proposalSettingUint", [simple "_settingContractName" "string",
      simple "_settingPath" "string", simple "_value" "uint256"], []⟩,
    ⟨"propose", [simple "_proposalMessage" "string", simple "_payload" "bytes"],
      [simple "" "uint256"]⟩,
    ⟨"version", [], [simple "" "uint8"]⟩]
  events := []

def memberSettings : Interface where
  functions := [
    ⟨"getChallengeCooldown", [], [simple "" "uint256"]⟩,
    ⟨"getQuorum", [], [simple "" "uint256"]⟩,
    ⟨"getRPLBond", [], [simple "" "uint256"]⟩,
    ⟨"getSettingBool", [simple "_settingPath" "string"], [simple "" "bool"]⟩,
    ⟨"getSettingUint", [simple "_settingPath" "string"], [simple "" "uint256"]⟩,
    ⟨"version", [], [simple "" "uint8"]⟩]
  events := []

def networkSettings : Interface where
  functions := [
    ⟨"getSettingBool", [simple "_settingPath" "string"], [simple "" "bool"]⟩,
    ⟨"getSettingUint", [simple "_settingPath" "string"], [simple "" "uint256"]⟩,
    ⟨"getSubmitBalancesEnabled", [], [simple "" "bool"]⟩,
    ⟨"getSubmitBalancesFrequency", [], [simple "" "uint256"]⟩,
    ⟨"getSubmitPricesEnabled", [], [simple "" "bool"]⟩,
    ⟨"getSubmitPricesFrequency", [], [simple "" "uint256"]⟩,
    ⟨"version", [], [simple "" "uint8"]⟩]
  events := []

def networkPrices : Interface where
  functions := [
    ⟨"getPricesBlock", [], [simple "" "uint256"]⟩,
    ⟨"getRPLPrice", [], [simple "" "uint256"]⟩,
    ⟨"submitPrices", [simple "_block" "uint256", simple "_slotTimestamp" "uint256",
      simple "_rplPrice" "uint256"], []⟩,
    ⟨"version", [], [simple "" "uint8"]⟩]
  events := [
    ⟨"PricesSubmitted", [indexed "from" "address", plain "block" "uint256",
      plain "slotTimestamp" "uint256", plain "rplPrice" "uint256", plain "time" "uint256"],
      false⟩,
    ⟨"PricesUpdated", [indexed "block" "uint256", plain "slotTimestamp" "uint256",
      plain "rplPrice" "uint256", plain "time" "uint256"], false⟩]

def networkBalances : Interface where
  functions := [
    ⟨"getBalancesBlock", [], [simple "" "uint256"]⟩,
    ⟨"getStakingETHBalance", [], [simple "" "uint256"]⟩,
    ⟨"getTotalETHBalance", [], [simple "" "uint256"]⟩,
    ⟨"getTotalRETHSupply", [], [simple "" "uint256"]⟩,
    ⟨"submitBalances", [simple "_block" "uint256", simple "_slotTimestamp" "uint256",
      simple "_totalEth" "uint256", simple "_stakingEth" "uint256",
      simple "_rethSupply" "uint256"], []⟩,
    ⟨"version", [], [simple "" "uint8"]⟩]
  events := [
    ⟨"BalancesSubmitted", [indexed "from" "address", plain "block" "uint256",
      plain "slotTimestamp" "uint256", plain "totalEth" "uint256", plain "stakingEth" "uint256",
      plain "rethSupply" "uint256", plain "blockTimestamp" "uint256"], false⟩,
    ⟨"BalancesUpdated", [indexed "block" "uint256", plain "slotTimestamp" "uint256",
      plain "totalEth" "uint256", plain "stakingEth" "uint256", plain "rethSupply" "uint256",
      plain "blockTimestamp" "uint256"], false⟩]

end ContractReads.Interface
