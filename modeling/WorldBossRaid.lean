import WorldBossRaid.Properties.Announcement
import WorldBossRaid.Properties.AttackReport
import WorldBossRaid.Properties.ClientRace
import WorldBossRaid.Properties.CombatRule
import WorldBossRaid.Properties.Combo
import WorldBossRaid.Properties.ComboIndependence
import WorldBossRaid.Properties.EndToEnd
import WorldBossRaid.Properties.FullTable
import WorldBossRaid.Properties.Framing
import WorldBossRaid.Properties.IdleRule
import WorldBossRaid.Properties.Locking
import WorldBossRaid.Properties.LuckyKill
import WorldBossRaid.Properties.Pacing
import WorldBossRaid.Properties.PlayerIds
import WorldBossRaid.Properties.ProcessTree
import WorldBossRaid.Properties.Progress
import WorldBossRaid.Properties.RateLimit
import WorldBossRaid.Properties.ReceivedBytes
import WorldBossRaid.Properties.Respawn
import WorldBossRaid.Properties.RollReuse
import WorldBossRaid.Properties.Victory
import WorldBossRaid.Properties.ClientParity
import WorldBossRaid.Properties.Corruption
import WorldBossRaid.Properties.RecordBoundaries
import WorldBossRaid.Properties.StreakBound
import WorldBossRaid.Properties.StreakHistory
