import DailyLottery.Runs.Accounting
import DailyLottery.Runs.Reveals
import DailyLottery.Runs.Recovery
import DailyLottery.Runs.Refunds
import DailyLottery.Runs.Frozen
import DailyLottery.Runs.Solvency
import DailyLottery.Runs.Receipts
import DailyLottery.Runs.Announced
import DailyLottery.Runs.Isolated
import DailyLottery.Draw.Uniform
import DailyLottery.Draw.Interval
import DailyLottery.Codec.Addresses
import DailyLottery.Draw.Binding
import DailyLottery.Draw.Votes
import DailyLottery.Codec.Pages
import DailyLottery.Codec.Dispatch
import DailyLottery.Runs.Stored
import DailyLottery.Twins.Charges
import DailyLottery.Twins.Donations
import DailyLottery.Calls.Chunks
import DailyLottery.Calls.Selection
import DailyLottery.Calls.Lawful
import DailyLottery.Calls.Complete
import DailyLottery.Calls.Ending
import DailyLottery.Calls.Determined
import DailyLottery.Calls.Attest
import DailyLottery.Calls.OneRoute
import DailyLottery.Calls.Outcomes
