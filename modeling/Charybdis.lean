import Charybdis.Lemmas
import Charybdis.Ctx.Context
import Charybdis.Ctx.Step
import Charybdis.Ctx.Notes
import Charybdis.Ctx.Wakeups
import Charybdis.Ctx.Yield
import Charybdis.Ctx.Restore
import Charybdis.Ctx.Alarm
import Charybdis.Ctx.View
import Charybdis.Ctx.ViewProof
import Charybdis.Ctx.Pool
import Charybdis.M.Sign
import Charybdis.M.Conforms
import Charybdis.M.Report
import Charybdis.Ctx.Ole
import Charybdis.Ctx.OleRefines
import Charybdis.Mods.Imports
import Charybdis.Mods.Init
import Charybdis.Net.Listen
